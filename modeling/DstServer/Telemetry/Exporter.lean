import DstServer.Lib.Run

/-!
# The exporter of log records

Any number of callers submit records, wait for a flush or begin the close;
one worker takes the records from a bounded channel, groups them into
batches and sends these to the collector.  They share the counters, the
control and the progress, each behind its own lock or channel.

A step is what happens between two points where another task can run: a
call under the locks, one turn of the worker up to its next await, or one
access of the worker to what it shares.  Time is free: a tick, a timeout and
the deadline of the close can come at any point where the source waits for
them.

A record is of any type; what counts is its encoded length.
-/

namespace DstServer.Telemetry

open Lib

/-! ## The data -/

/-- The limits that `LogExporter::new` checks. -/
structure Config where
  queueCapacity : Nat
  queueBytes : Nat
  maxBatchRecords : Nat
  maxBatchBytes : Nat
  /-- The length of a request with no records, and room for its prefixes. -/
  envelopeBytes : Nat
  capacity_pos : 0 < queueCapacity
  queueBytes_pos : 0 < queueBytes
  records_pos : 0 < maxBatchRecords
  envelope_lt : envelopeBytes < maxBatchBytes

structure PendingLog (ρ : Type) where
  record : ρ
  bytes : Nat
  sequence : Nat

/-- The record with its length, as it was submitted. -/
def PendingLog.payload {ρ : Type} (item : PendingLog ρ) : ρ × Nat := (item.record, item.bytes)

structure ExportStats where
  accepted : Nat := 0
  exported : Nat := 0
  rejected : Nat := 0
  failed : Nat := 0
  timedOut : Nat := 0
  shutdownDropped : Nat := 0
  invalid : Nat := 0
  tooLarge : Nat := 0
  queueFull : Nat := 0
  queueBytesFull : Nat := 0
  closedDropped : Nat := 0
  retries : Nat := 0
  pendingRecords : Nat := 0
  pendingBytes : Nat := 0
  closed : Bool := false
  lastError : Option String := none

inductive Submission where
  | accepted
  | queueFull
  | byteLimit
  | tooLarge
  | closed
  deriving DecidableEq, Repr

structure ExportControl where
  flushThrough : Nat := 0
  /-- There is a deadline for the close. -/
  closing : Bool := false

structure ExportProgress where
  completed : Nat := 0
  stopped : Bool := false

/-- Where the worker is. -/
inductive Phase (ρ : Type) where
  /-- At the head of its loop. -/
  | looping
  /-- At its `select!`, with the control it read. -/
  | selecting (command : ExportControl)
  | sending (batch : List (PendingLog ρ))
  /-- In the delay before it sends the batch again. -/
  | backoff (batch : List (PendingLog ρ))
  /-- The counters know the result of the batch, and the progress does not. -/
  | settled
  /-- Out of its loop. -/
  | leaving
  /-- These records were dropped, and are not counted yet. -/
  | released (lost : List (PendingLog ρ))
  | counted (completed : Nat)
  | stopped

structure Worker (ρ : Type) where
  phase : Phase ρ := .looping
  batch : List (PendingLog ρ) := []
  batchBytes : Nat
  next : Option (PendingLog ρ) := none
  closed : Bool := false
  flush : Bool := false
  completed : Nat := 0

/-- A call that waits for the progress to reach its target. -/
structure Waiter where
  target : Nat
  stopping : Bool
  deriving DecidableEq

structure Exporter (ρ : Type) where
  /-- The sender was not taken. -/
  sender : Bool := true
  stats : ExportStats := {}
  queue : List (PendingLog ρ) := []
  /-- The receiver was not dropped. -/
  receiving : Bool := true
  control : ExportControl := {}
  progress : ExportProgress := {}
  worker : Worker ρ
  waiters : List Waiter := []

def initial (config : Config) (ρ : Type) : Exporter ρ :=
  { worker := { batchBytes := config.envelopeBytes } }

variable {ρ : Type}

/-! ## Submitting -/

/-- `Sender::try_send`. -/
inductive TrySend where
  | sent
  | full
  | closed

def Exporter.trySend (config : Config) (s : Exporter ρ) : TrySend :=
  if s.receiving = false then .closed
  else if config.queueCapacity ≤ s.queue.length then .full
  else .sent

/-- `submit`: the input is nothing for a record that cannot be encoded, and
the outcome is nothing for the error about it. -/
def submit (config : Config) (input : Option (ρ × Nat)) (s : Exporter ρ) :
    Option Submission × Exporter ρ :=
  let stats := s.stats
  match input with
  | none => (none, { s with stats := { stats with invalid := stats.invalid + 1 } })
  | some (record, bytes) =>
    if s.sender = false then
      (some .closed, { s with stats := { stats with closedDropped := stats.closedDropped + 1 } })
    else if 64 * 1024 < bytes ∨ config.maxBatchBytes < bytes + (config.envelopeBytes + 8) then
      (some .tooLarge, { s with stats := { stats with tooLarge := stats.tooLarge + 1 } })
    else if config.queueCapacity ≤ stats.pendingRecords then
      (some .queueFull, { s with stats := { stats with queueFull := stats.queueFull + 1 } })
    else if config.queueBytes - stats.pendingBytes < bytes then
      (some .byteLimit, { s with stats :=
        { stats with queueBytesFull := stats.queueBytesFull + 1 } })
    else match s.trySend config with
      | .sent =>
        (some .accepted, { s with
          queue := s.queue ++ [{ record := record, bytes := bytes, sequence := stats.accepted + 1 }]
          stats := { stats with
            accepted := stats.accepted + 1
            pendingRecords := stats.pendingRecords + 1
            pendingBytes := stats.pendingBytes + bytes } })
      | .full => (some .queueFull, { s with stats := { stats with queueFull := stats.queueFull + 1 } })
      | .closed =>
        (some .closed, { s with stats := { stats with closedDropped := stats.closedDropped + 1 } })

/-! ## Results of a batch -/

inductive BatchResult where
  | delivered (rejected : Nat) (warning : Option String)
  | failed (error : String)
  | timedOut

/-- The codes of a status. -/
inductive Code where
  | ok | cancelled | unknown | invalidArgument | deadlineExceeded | notFound | alreadyExists
  | permissionDenied | resourceExhausted | failedPrecondition | aborted | outOfRange
  | unimplemented | internal | unavailable | dataLoss | unauthenticated
  deriving DecidableEq, Repr

/-- What the collector answers: a response with its partial success, or a
status with its text, which may say when to retry. -/
inductive Response where
  | response (partialSuccess : Option (Int × String))
  | status (code : Code) (text : String) (retryInfo : Bool)

def temporary (code : Code) (retryInfo : Bool) : Bool :=
  code ∈ [.cancelled, .deadlineExceeded, .aborted, .outOfRange, .unavailable, .dataLoss] ||
    (code = .resourceExhausted && retryInfo)

/-- The first 1024 characters of a text. -/
def shortened (text : String) : String := .ofList (text.toList.take 1024)

/-- What `retry_batch` does with an answer: it returns, or it tries again
after an error. -/
def receive (count : Nat) : Response → BatchResult ⊕ String
  | .response none => .inl (.delivered 0 none)
  | .response (some (rejected, message)) =>
    if 0 ≤ rejected ∧ rejected ≤ count then
      .inl (.delivered rejected.toNat (if message = "" then none else some (shortened message)))
    else .inl (.failed "collector returned an invalid rejected record count")
  | .status code text retryInfo =>
    if temporary code retryInfo then .inr (shortened text) else .inl (.failed (shortened text))

/-- The number of bytes of these records. -/
def totalBytes (items : List (PendingLog ρ)) : Nat := (items.map PendingLog.bytes).sum

/-- The counters after the result of a batch. -/
def ExportStats.settle (stats : ExportStats) (batch : List (PendingLog ρ)) (result : BatchResult) :
    ExportStats :=
  let count := batch.length
  let stats := { stats with
    pendingRecords := stats.pendingRecords - count
    pendingBytes := stats.pendingBytes - totalBytes batch }
  match result with
  | .delivered rejected warning => { stats with
      exported := stats.exported + (count - rejected)
      rejected := stats.rejected + rejected
      lastError := warning }
  | .failed error => { stats with failed := stats.failed + count, lastError := some error }
  | .timedOut => { stats with
      timedOut := stats.timedOut + count
      lastError := some "OTLP batch delivery deadline expired" }

/-! ## The worker -/

namespace Worker

def push (worker : Worker ρ) (item : PendingLog ρ) : Worker ρ :=
  { worker with batch := worker.batch ++ [item], batchBytes := worker.batchBytes + (item.bytes + 8) }

/-- The batch is sent now. -/
def due (config : Config) (command : ExportControl) (worker : Worker ρ) : Bool :=
  !worker.batch.isEmpty && (worker.flush || worker.closed ||
    decide (config.maxBatchRecords ≤ worker.batch.length) ||
    (decide (worker.completed < command.flushThrough) &&
      worker.batch.getLast?.any fun item => decide (command.flushThrough ≤ item.sequence)))

/-- One turn of the loop, before the deadline of the close. -/
def turn (config : Config) (command : ExportControl) (worker : Worker ρ) : Worker ρ :=
  if worker.due config command then
    { worker with
      phase := .sending worker.batch
      batch := []
      completed := (worker.batch.getLast?.map PendingLog.sequence).getD worker.completed }
  else if worker.closed && worker.batch.isEmpty then { worker with phase := .leaving }
  else match worker.next with
    | some item => { worker.push item with next := none, phase := .looping }
    | none => { worker with phase := .selecting command }

/-- The worker took a record from the channel. -/
def accept (config : Config) (worker : Worker ρ) (item : PendingLog ρ) : Worker ρ :=
  if config.maxBatchBytes < worker.batchBytes + item.bytes + 8 then
    { worker with next := some item, flush := true, phase := .looping }
  else { worker.push item with phase := .looping }

end Worker

/-! ## Steps -/

inductive Event (ρ : Type) where
  | submits (outcome : Option Submission) (input : Option (ρ × Nat))
  | sends (batch : List (PendingLog ρ))
  | waits (waiter : Waiter)
  /-- A wait is over, with the counters or with an error. -/
  | returns (waiter : Waiter) (ok : Bool)
  | internal

inductive Step (config : Config) : Exporter ρ → Event ρ → Exporter ρ → Prop
  -- the callers
  | submit (s : Exporter ρ) (input : Option (ρ × Nat)) :
      Step config s (.submits (submit config input s).1 input) (submit config input s).2
  | flush (s : Exporter ρ) :
      Step config s (.waits ⟨s.stats.accepted, false⟩)
        { s with waiters := s.waiters ++ [⟨s.stats.accepted, false⟩] }
  | raise (s : Exporter ρ) (waiter : Waiter) (hwaiter : waiter ∈ s.waiters)
      (hflush : waiter.stopping = false) :
      Step config s .internal { s with control :=
        { s.control with flushThrough := max s.control.flushThrough waiter.target } }
  | takeSender (s : Exporter ρ) (hsender : s.sender = true) :
      Step config s .internal { s with sender := false }
  | beginClose (s : Exporter ρ) (hsender : s.sender = false) (hcontrol : s.control.closing = false) :
      Step config s .internal { s with
        stats := { s.stats with closed := true }
        control := { flushThrough := s.stats.accepted, closing := true } }
  | close (s : Exporter ρ) (hsender : s.sender = false) :
      Step config s (.waits ⟨s.stats.accepted, true⟩)
        { s with waiters := s.waiters ++ [⟨s.stats.accepted, true⟩] }
  | wake (s : Exporter ρ) (waiter : Waiter) (hwaiter : waiter ∈ s.waiters)
      (hready : s.progress.stopped = true ∨
        waiter.stopping = false ∧ waiter.target ≤ s.progress.completed) :
      Step config s (.returns waiter (decide (waiter.target ≤ s.progress.completed)))
        { s with waiters := s.waiters.erase waiter }
  | abandon (s : Exporter ρ) (waiter : Waiter) (hwaiter : waiter ∈ s.waiters) :
      Step config s .internal { s with waiters := s.waiters.erase waiter }
  -- the worker at the head of its loop
  | expire (s : Exporter ρ) (hphase : s.worker.phase = .looping) (hclosing : s.control.closing = true) :
      Step config s .internal { s with worker := { s.worker with phase := .leaving } }
  | send (s : Exporter ρ) (hphase : s.worker.phase = .looping)
      (hdue : s.worker.due config s.control = true) :
      Step config s (.sends s.worker.batch) { s with worker := s.worker.turn config s.control }
  | turn (s : Exporter ρ) (hphase : s.worker.phase = .looping)
      (hdue : s.worker.due config s.control = false) :
      Step config s .internal { s with worker := s.worker.turn config s.control }
  -- at its `select!`
  | receive (s : Exporter ρ) (command : ExportControl) (item : PendingLog ρ)
      (later : List (PendingLog ρ)) (hphase : s.worker.phase = .selecting command)
      (hclosed : s.worker.closed = false) (hqueue : s.queue = item :: later) :
      Step config s .internal { s with queue := later, worker := s.worker.accept config item }
  | disconnected (s : Exporter ρ) (command : ExportControl)
      (hphase : s.worker.phase = .selecting command) (hclosed : s.worker.closed = false)
      (hqueue : s.queue = []) (hsender : s.sender = false) :
      Step config s .internal
        { s with worker := { s.worker with closed := true, phase := .looping } }
  | tick (s : Exporter ρ) (command : ExportControl) (hphase : s.worker.phase = .selecting command) :
      Step config s .internal
        { s with worker := { s.worker with flush := !s.worker.batch.isEmpty, phase := .looping } }
  | changed (s : Exporter ρ) (command : ExportControl)
      (hphase : s.worker.phase = .selecting command) :
      Step config s .internal { s with worker := { s.worker with phase := .looping } }
  | deadline (s : Exporter ρ) (command : ExportControl)
      (hphase : s.worker.phase = .selecting command) (hclosing : command.closing = true) :
      Step config s .internal { s with worker := { s.worker with phase := .leaving } }
  -- sending
  | answer (s : Exporter ρ) (batch : List (PendingLog ρ)) (response : Response) (result : BatchResult)
      (hphase : s.worker.phase = .sending batch)
      (hresult : Telemetry.receive batch.length response = .inl result) :
      Step config s .internal
        { s with stats := s.stats.settle batch result, worker := { s.worker with phase := .settled } }
  | delay (s : Exporter ρ) (batch : List (PendingLog ρ)) (response : Response) (error : String)
      (hphase : s.worker.phase = .sending batch)
      (hresult : Telemetry.receive batch.length response = .inr error) :
      Step config s .internal
        { s with
          stats := { s.stats with lastError := some error }
          worker := { s.worker with phase := .backoff batch } }
  | retry (s : Exporter ρ) (batch : List (PendingLog ρ)) (hphase : s.worker.phase = .backoff batch) :
      Step config s .internal
        { s with
          stats := { s.stats with retries := s.stats.retries + 1 }
          worker := { s.worker with phase := .sending batch } }
  | timeout (s : Exporter ρ) (batch : List (PendingLog ρ))
      (hphase : s.worker.phase = .sending batch ∨ s.worker.phase = .backoff batch) :
      Step config s .internal
        { s with
          stats := s.stats.settle batch .timedOut
          worker := { s.worker with phase := .settled } }
  | report (s : Exporter ρ) (hphase : s.worker.phase = .settled) :
      Step config s .internal
        { s with
          progress := { completed := s.worker.completed, stopped := false }
          worker := { s.worker with
            batchBytes := config.envelopeBytes
            flush := false
            phase := .looping } }
  -- the end of the worker
  | release (s : Exporter ρ) (hphase : s.worker.phase = .leaving) :
      Step config s .internal
        { s with
          receiving := false
          queue := []
          worker := { s.worker with
            batch := []
            next := none
            phase := .released (s.worker.batch ++ (s.worker.next.toList ++ s.queue)) } }
  | count (s : Exporter ρ) (lost : List (PendingLog ρ)) (hphase : s.worker.phase = .released lost) :
      Step config s .internal
        { s with
          stats := { s.stats with
            shutdownDropped := s.stats.shutdownDropped + s.stats.pendingRecords
            pendingRecords := 0
            pendingBytes := 0
            closed := true }
          worker := { s.worker with phase := .counted s.stats.accepted } }
  | stop (s : Exporter ρ) (completed : Nat) (hphase : s.worker.phase = .counted completed) :
      Step config s .internal
        { s with
          progress := { completed := completed, stopped := true }
          worker := { s.worker with phase := .stopped } }

end DstServer.Telemetry
