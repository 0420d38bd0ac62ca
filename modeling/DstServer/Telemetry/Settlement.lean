import DstServer.Telemetry.Exporter

/-!
# Every accepted record is settled once

The accepted records, in their order, are those that are `gone` (they were
exported, rejected, failed, timed out or dropped at the end) and then those
that are `held`: in flight, in the worker's batch, in its next slot and in
the channel.  A `Ledger` compares the counters with these two lists, and
`Sound` adds what the worker, the progress and the waiters know of them.
-/

namespace DstServer.Telemetry

open Lib

variable {ρ : Type} {config : Config}

/-! ## Where the records are -/

/-- The records that left the worker's batch and have no result yet. -/
def Phase.inFlight : Phase ρ → List (PendingLog ρ)
  | .sending batch | .backoff batch | .released batch => batch
  | _ => []

/-- The receiver is dropped in this phase. -/
def Phase.over : Phase ρ → Bool
  | .released _ | .counted _ | .stopped => true
  | _ => false

def Exporter.waiting (s : Exporter ρ) : List (PendingLog ρ) :=
  s.worker.batch ++ (s.worker.next.toList ++ s.queue)

def Exporter.held (s : Exporter ρ) : List (PendingLog ρ) :=
  s.worker.phase.inFlight ++ s.waiting

/-- The records that were accepted, as they were submitted. -/
def accepted (events : List (Event ρ)) : List (ρ × Nat) :=
  events.filterMap fun event => match event with
    | .submits (some .accepted) input => input
    | _ => none

def sent (events : List (Event ρ)) : List (List (PendingLog ρ)) :=
  events.filterMap fun event => match event with
    | .sends batch => some batch
    | _ => none

/-- The number of records with this outcome. -/
def submitted (outcome : Option Submission) (events : List (Event ρ)) : Nat :=
  events.countP fun event => match event with
    | .submits found _ => decide (found = outcome)
    | _ => false

theorem accepted_append (events later : List (Event ρ)) :
    accepted (events ++ later) = accepted events ++ accepted later := List.filterMap_append

theorem sent_append (events later : List (Event ρ)) :
    sent (events ++ later) = sent events ++ sent later := List.filterMap_append

theorem sent_internal (events : List (Event ρ)) : sent (events ++ [.internal]) = sent events := by
  rw [sent_append]
  exact List.append_nil _

theorem submitted_append (outcome : Option Submission) (events later : List (Event ρ)) :
    submitted outcome (events ++ later) = submitted outcome events + submitted outcome later :=
  List.countP_append

/-! ## The counters of the submissions -/

/-- The counter of an outcome. -/
def ExportStats.outcome (stats : ExportStats) : Option Submission → Nat
  | some .accepted => stats.accepted
  | some .queueFull => stats.queueFull
  | some .byteLimit => stats.queueBytesFull
  | some .tooLarge => stats.tooLarge
  | some .closed => stats.closedDropped
  | none => stats.invalid

theorem outcome_settle (stats : ExportStats) (batch : List (PendingLog ρ)) (result : BatchResult)
    (outcome : Option Submission) :
    (stats.settle batch result).outcome outcome = stats.outcome outcome := by
  cases result with
  | delivered rejected warning => rcases outcome with _ | _ | _ | _ | _ | _ <;> rfl
  | failed error => rcases outcome with _ | _ | _ | _ | _ | _ <;> rfl
  | timedOut => rcases outcome with _ | _ | _ | _ | _ | _ <;> rfl

/-- A submission is counted once, under its outcome. -/
theorem outcome_submit (input : Option (ρ × Nat)) (s : Exporter ρ) (outcome : Option Submission) :
    (submit config input s).2.stats.outcome outcome =
      s.stats.outcome outcome + if (submit config input s).1 = outcome then 1 else 0 := by
  unfold submit
  simp only
  split
  · rcases outcome with _ | _ | _ | _ | _ | _ <;> rfl
  split
  · rcases outcome with _ | _ | _ | _ | _ | _ <;> rfl
  split
  · rcases outcome with _ | _ | _ | _ | _ | _ <;> rfl
  split
  · rcases outcome with _ | _ | _ | _ | _ | _ <;> rfl
  split
  · rcases outcome with _ | _ | _ | _ | _ | _ <;> rfl
  split
  · rcases outcome with _ | _ | _ | _ | _ | _ <;> rfl
  · rcases outcome with _ | _ | _ | _ | _ | _ <;> rfl
  · rcases outcome with _ | _ | _ | _ | _ | _ <;> rfl

theorem outcome_step {s t : Exporter ρ} {event : Event ρ} (h : Step config s event t)
    (outcome : Option Submission) :
    t.stats.outcome outcome = s.stats.outcome outcome + submitted outcome [event] := by
  cases h with
  | submit input =>
    rw [outcome_submit, submitted, List.countP_singleton]
    simp only [decide_eq_true_eq]
  | answer batch response result => exact outcome_settle _ _ _ _
  | timeout batch => exact outcome_settle _ _ _ _
  | _ => rcases outcome with _ | _ | _ | _ | _ | _ <;> rfl

theorem outcome_run {s : Exporter ρ} {events : List (Event ρ)}
    (h : Run (Step config) (initial config ρ) events s) (outcome : Option Submission) :
    s.stats.outcome outcome = submitted outcome events := by
  induction h with
  | nil => rcases outcome with _ | _ | _ | _ | _ | _ <;> rfl
  | snoc _ hstep ih => rw [outcome_step hstep, ih, submitted_append]

/-! ## The ledger -/

/-- The number of records with a result. -/
def ExportStats.settled (stats : ExportStats) : Nat :=
  stats.exported + stats.rejected + stats.failed + stats.timedOut + stats.shutdownDropped

structure Ledger (config : Config) (events : List (Event ρ)) (stats : ExportStats)
    (held gone : List (PendingLog ρ)) : Prop where
  accepted : (gone ++ held).map PendingLog.payload = accepted events
  numbered : ∀ (i : Nat) (item : PendingLog ρ), (gone ++ held)[i]? = some item →
    item.sequence = i + 1
  total : stats.accepted = (gone ++ held).length
  settled : stats.settled = gone.length
  records : stats.pendingRecords = held.length
  bytes : stats.pendingBytes = totalBytes held
  capacity : held.length ≤ config.queueCapacity
  space : totalBytes held ≤ config.queueBytes
  fits : ∀ item ∈ held, config.envelopeBytes + (item.bytes + 8) ≤ config.maxBatchBytes

theorem totalBytes_append (items others : List (PendingLog ρ)) :
    totalBytes (items ++ others) = totalBytes items + totalBytes others := by
  simp [totalBytes]

/-- A step that accepts no record and leaves the counters. -/
theorem Ledger.of_eq {events later : List (Event ρ)} {stats stats' : ExportStats}
    {held gone : List (PendingLog ρ)} (h : Ledger config events stats held gone)
    (hlater : Telemetry.accepted later = []) (htotal : stats'.accepted = stats.accepted)
    (hsettled : stats'.settled = stats.settled)
    (hrecords : stats'.pendingRecords = stats.pendingRecords)
    (hbytes : stats'.pendingBytes = stats.pendingBytes) :
    Ledger config (events ++ later) stats' held gone where
  accepted := by rw [accepted_append, hlater, List.append_nil, h.accepted]
  numbered := h.numbered
  total := htotal.trans h.total
  settled := hsettled.trans h.settled
  records := hrecords.trans h.records
  bytes := hbytes.trans h.bytes
  capacity := h.capacity
  space := h.space
  fits := h.fits

/-- A new record at the end. -/
theorem Ledger.extend {events : List (Event ρ)} {stats stats' : ExportStats}
    {held gone : List (PendingLog ρ)} (h : Ledger config events stats held gone) {record : ρ}
    {bytes : Nat} (hfits : config.envelopeBytes + (bytes + 8) ≤ config.maxBatchBytes)
    (hcapacity : stats.pendingRecords < config.queueCapacity)
    (hspace : bytes ≤ config.queueBytes - stats.pendingBytes)
    (htotal : stats'.accepted = stats.accepted + 1) (hsettled : stats'.settled = stats.settled)
    (hrecords : stats'.pendingRecords = stats.pendingRecords + 1)
    (hbytes : stats'.pendingBytes = stats.pendingBytes + bytes) :
    Ledger config (events ++ [.submits (some .accepted) (some (record, bytes))]) stats'
      (held ++ [{ record := record, bytes := bytes, sequence := stats.accepted + 1 }]) gone where
  accepted := by
    rw [accepted_append, ← List.append_assoc, List.map_append, h.accepted]
    rfl
  numbered i item hitem := by
    rw [← List.append_assoc] at hitem
    rcases Nat.lt_or_ge i (gone ++ held).length with hlt | hge
    · rw [List.getElem?_append_left hlt] at hitem
      exact h.numbered i item hitem
    · rw [List.getElem?_append_right hge, List.getElem?_singleton] at hitem
      split at hitem
      · rename_i hzero
        cases hitem
        have htotal := h.total
        show stats.accepted + 1 = i + 1
        omega
      · cases hitem
  total := by
    have hlength := h.total
    simp only [List.length_append, List.length_singleton] at hlength ⊢
    omega
  settled := hsettled.trans h.settled
  records := by
    have hheld := h.records
    rw [List.length_append, List.length_singleton]
    omega
  bytes := by
    have hheld := h.bytes
    rw [totalBytes_append, hbytes, hheld]
    rfl
  capacity := by
    have hheld := h.records
    rw [List.length_append, List.length_singleton]
    omega
  space := by
    have hheld := h.bytes
    have hle := h.space
    have hone : totalBytes [({ record := record, bytes := bytes, sequence := stats.accepted + 1 } :
        PendingLog ρ)] = bytes := rfl
    rw [totalBytes_append, hone]
    omega
  fits item hitem := by
    rcases List.mem_append.1 hitem with hitem | hitem
    · exact h.fits item hitem
    · rw [List.mem_singleton] at hitem
      rw [hitem]
      exact hfits

/-- The first held records get a result. -/
theorem Ledger.settle {events later : List (Event ρ)} {stats stats' : ExportStats}
    {batch held gone : List (PendingLog ρ)} (h : Ledger config events stats (batch ++ held) gone)
    (hlater : Telemetry.accepted later = []) (htotal : stats'.accepted = stats.accepted)
    (hsettled : stats'.settled = stats.settled + batch.length)
    (hrecords : stats'.pendingRecords = stats.pendingRecords - batch.length)
    (hbytes : stats'.pendingBytes = stats.pendingBytes - totalBytes batch) :
    Ledger config (events ++ later) stats' held (gone ++ batch) where
  accepted := by rw [accepted_append, hlater, List.append_nil, List.append_assoc, h.accepted]
  numbered i item hitem := by
    rw [List.append_assoc] at hitem
    exact h.numbered i item hitem
  total := by rw [htotal, List.append_assoc, h.total]
  settled := by rw [hsettled, List.length_append, h.settled]
  records := by
    have hlength := h.records
    rw [List.length_append] at hlength
    omega
  bytes := by
    have hheld := h.bytes
    rw [totalBytes_append] at hheld
    omega
  capacity := by
    have hle := h.capacity
    rw [List.length_append] at hle
    omega
  space := by
    have hle := h.space
    rw [totalBytes_append] at hle
    omega
  fits item hitem := h.fits item (List.mem_append_right batch hitem)

/-- A result of a batch is one result for each of its records. -/
theorem settled_settle {stats : ExportStats} {batch : List (PendingLog ρ)} {result : BatchResult}
    (hrejected : ∀ rejected warning, result = .delivered rejected warning → rejected ≤ batch.length) :
    (stats.settle batch result).settled = stats.settled + batch.length := by
  cases result with
  | delivered rejected warning =>
    have hle := hrejected rejected warning rfl
    simp only [ExportStats.settle, ExportStats.settled]
    omega
  | failed error =>
    simp only [ExportStats.settle, ExportStats.settled]
    omega
  | timedOut =>
    simp only [ExportStats.settle, ExportStats.settled]
    omega

theorem settle_fields (stats : ExportStats) (batch : List (PendingLog ρ)) (result : BatchResult) :
    (stats.settle batch result).accepted = stats.accepted ∧
      (stats.settle batch result).pendingRecords = stats.pendingRecords - batch.length ∧
      (stats.settle batch result).pendingBytes = stats.pendingBytes - totalBytes batch := by
  cases result with
  | delivered rejected warning => exact ⟨rfl, rfl, rfl⟩
  | failed error => exact ⟨rfl, rfl, rfl⟩
  | timedOut => exact ⟨rfl, rfl, rfl⟩

/-- The collector cannot reject more records than there are. -/
theorem receive_rejected {count rejected : Nat} {warning : Option String} {response : Response}
    (h : receive count response = .inl (.delivered rejected warning)) : rejected ≤ count := by
  unfold receive at h
  split at h
  · cases h
    exact Nat.zero_le _
  · split at h
    · rename_i hrange
      cases h
      omega
    · cases h
  · split at h
    · cases h
    · cases h

/-! ## The invariant -/

/-- The phases in which the worker collects a batch. -/
def Phase.collects : Phase ρ → Bool
  | .looping | .selecting _ | .leaving => true
  | _ => false

/-- The bytes of these records in a request. -/
def batchLength (items : List (PendingLog ρ)) : Nat := (items.map fun item => item.bytes + 8).sum

structure Worker.Fits (config : Config) (worker : Worker ρ) : Prop where
  bytes : worker.phase.collects = true →
    worker.batchBytes = config.envelopeBytes + batchLength worker.batch ∧
      worker.batchBytes ≤ config.maxBatchBytes
  empty : worker.phase.collects = false → worker.batch = []
  length : worker.batch.length ≤ config.maxBatchRecords
  room : ∀ command, worker.phase = .selecting command →
    worker.batch.length < config.maxBatchRecords ∧ worker.next = none
  /-- A record in the next slot waits for its batch to be sent. -/
  next : worker.next.isSome = true → worker.flush = true ∨ worker.batch = []

/-- A batch within the limits. -/
structure Limited (config : Config) (batch : List (PendingLog ρ)) : Prop where
  nonempty : batch ≠ []
  records : batch.length ≤ config.maxBatchRecords
  bytes : config.envelopeBytes + batchLength batch ≤ config.maxBatchBytes

structure Sound (config : Config) (events : List (Event ρ)) (s : Exporter ρ)
    (gone unsent : List (PendingLog ρ)) : Prop where
  ledger : Ledger config events s.stats s.held gone
  fits : s.worker.Fits config
  limited : ∀ batch ∈ sent events, Limited config batch
  order : (sent events).flatten ++ unsent = gone ++ s.held
  running : s.worker.phase.over = false → s.receiving = true ∧ unsent = s.waiting ∧
    s.worker.completed = (sent events).flatten.length
  halted : s.worker.phase.over = true → s.receiving = false ∧ s.waiting = []
  counted : ∀ completed, s.worker.phase = .counted completed → completed = gone.length
  progress : s.progress.completed ≤ gone.length
  stopped : s.progress.stopped = true →
    s.worker.phase = .stopped ∧ s.progress.completed = gone.length
  waiters : ∀ waiter ∈ s.waiters, waiter.target ≤ s.stats.accepted

variable {events : List (Event ρ)} {s t : Exporter ρ} {gone unsent : List (PendingLog ρ)}

/-- A call that accepts no record. -/
theorem Sound.calls (h : Sound config events s gone unsent) {event : Event ρ}
    (haccepted : accepted [event] = []) (hsent : sent [event] = []) (hworker : t.worker = s.worker)
    (hqueue : t.queue = s.queue) (hreceiving : t.receiving = s.receiving)
    (hprogress : t.progress = s.progress) (htotal : t.stats.accepted = s.stats.accepted)
    (hsettled : t.stats.settled = s.stats.settled)
    (hrecords : t.stats.pendingRecords = s.stats.pendingRecords)
    (hbytes : t.stats.pendingBytes = s.stats.pendingBytes)
    (hwaiters : ∀ waiter ∈ t.waiters, waiter.target ≤ s.stats.accepted) :
    Sound config (events ++ [event]) t gone unsent := by
  have hwaiting : t.waiting = s.waiting := by
    rw [Exporter.waiting, Exporter.waiting, hworker, hqueue]
  have hheld : t.held = s.held := by rw [Exporter.held, Exporter.held, hworker, hwaiting]
  have hsame : sent (events ++ [event]) = sent events := by
    rw [sent_append, hsent, List.append_nil]
  refine ⟨?_, ?_, ?_, ?_, ?_, ?_, ?_, ?_, ?_, ?_⟩
  · rw [hheld]
    exact h.ledger.of_eq haccepted htotal hsettled hrecords hbytes
  · rw [hworker]
    exact h.fits
  · rw [hsame]
    exact h.limited
  · rw [hsame, hheld]
    exact h.order
  · rw [hsame, hworker, hreceiving, hwaiting]
    exact h.running
  · rw [hworker, hreceiving, hwaiting]
    exact h.halted
  · rw [hworker]
    exact h.counted
  · rw [hprogress]
    exact h.progress
  · rw [hprogress, hworker]
    exact h.stopped
  · rw [htotal]
    exact hwaiters

theorem inFlight_of_collects {phase : Phase ρ} (h : phase.collects = true) :
    phase.inFlight = [] ∧ phase.over = false := by
  cases phase with
  | looping => exact ⟨rfl, rfl⟩
  | selecting command => exact ⟨rfl, rfl⟩
  | leaving => exact ⟨rfl, rfl⟩
  | _ => cases h

theorem collects_ne_counted {phase : Phase ρ} (h : phase.collects = true) {completed : Nat} :
    phase ≠ .counted completed := by
  rintro rfl
  cases h

/-- The progress is not final while the worker collects. -/
theorem Sound.not_stopped (h : Sound config events s gone unsent)
    (hphase : s.worker.phase.over = false) : s.progress.stopped = false := by
  refine Bool.eq_false_iff.2 fun hstopped => ?_
  rw [(h.stopped hstopped).1] at hphase
  cases hphase

/-- A turn of the worker that moves no record. -/
theorem Sound.idles (h : Sound config events s gone unsent) {worker : Worker ρ}
    (hphase : s.worker.phase.collects = true) (hphase' : worker.phase.collects = true)
    (hbatch : worker.batch = s.worker.batch) (hnext : worker.next = s.worker.next)
    (hbytes : worker.batchBytes = s.worker.batchBytes)
    (hcompleted : worker.completed = s.worker.completed)
    (hroom : ∀ command, worker.phase = .selecting command →
      worker.batch.length < config.maxBatchRecords ∧ worker.next = none)
    (hflush : worker.next.isSome = true → worker.flush = true ∨ worker.batch = []) :
    Sound config (events ++ [.internal]) { s with worker := worker } gone unsent := by
  obtain ⟨hflight, hrunning⟩ := inFlight_of_collects hphase
  obtain ⟨hflight', hrunning'⟩ := inFlight_of_collects hphase'
  have hwaiting : Exporter.waiting { s with worker := worker } = s.waiting := by
    simp only [Exporter.waiting, hbatch, hnext]
  have hheld : Exporter.held { s with worker := worker } = s.held := by
    rw [Exporter.held, Exporter.held, hwaiting, hflight, hflight']
  have hsame := sent_internal events
  have hfits := h.fits.bytes hphase
  refine ⟨?_, ⟨fun _ => ?_, fun hnot => ?_, ?_, hroom, hflush⟩, ?_, ?_, fun _ => ?_, fun hover => ?_,
    fun completed hcounted => ?_, h.progress, fun hstopped => ?_, h.waiters⟩
  · rw [hheld]
    exact h.ledger.of_eq rfl rfl rfl rfl rfl
  · rw [hbytes, hbatch]
    exact hfits
  · rw [hphase'] at hnot
    cases hnot
  · rw [hbatch]
    exact h.fits.length
  · rw [hsame]
    exact h.limited
  · rw [hsame, hheld]
    exact h.order
  · rw [hsame, hwaiting, hcompleted]
    exact h.running hrunning
  · rw [hrunning'] at hover
    cases hover
  · exact absurd hcounted (collects_ne_counted hphase')
  · rw [h.not_stopped hrunning] at hstopped
    cases hstopped

/-- A record goes to the end of the channel. -/
theorem Sound.extend (h : Sound config events s gone unsent) {record : ρ} {bytes : Nat}
    (hreceiving : s.receiving = true)
    (hfits : config.envelopeBytes + (bytes + 8) ≤ config.maxBatchBytes)
    (hcapacity : s.stats.pendingRecords < config.queueCapacity)
    (hspace : bytes ≤ config.queueBytes - s.stats.pendingBytes) :
    Sound config (events ++ [.submits (some .accepted) (some (record, bytes))])
      { s with
        queue := s.queue ++ [{ record := record, bytes := bytes, sequence := s.stats.accepted + 1 }]
        stats := { s.stats with
          accepted := s.stats.accepted + 1
          pendingRecords := s.stats.pendingRecords + 1
          pendingBytes := s.stats.pendingBytes + bytes } } gone
      (unsent ++ [{ record := record, bytes := bytes, sequence := s.stats.accepted + 1 }]) := by
  generalize hitem : ({ record := record, bytes := bytes, sequence := s.stats.accepted + 1 } :
    PendingLog ρ) = item
  have hrunning : s.worker.phase.over = false := by
    refine Bool.eq_false_iff.2 fun hover => ?_
    rw [(h.halted hover).1] at hreceiving
    cases hreceiving
  have hwaiting : s.worker.batch ++ (s.worker.next.toList ++ (s.queue ++ [item])) =
      s.waiting ++ [item] := by
    simp [Exporter.waiting]
  have hheld : s.worker.phase.inFlight ++ (s.waiting ++ [item]) = s.held ++ [item] := by
    simp [Exporter.held]
  have hsame : sent (events ++ [.submits (some .accepted) (some (record, bytes))]) = sent events := by
    rw [sent_append]
    exact List.append_nil _
  refine ⟨?_, h.fits, ?_, ?_, fun _ => ?_, fun hover => ?_, h.counted, h.progress, h.stopped,
    fun waiter hwaiter => Nat.le_succ_of_le (h.waiters waiter hwaiter)⟩
  · rw [Exporter.held, Exporter.waiting, hwaiting, hheld, ← hitem]
    exact h.ledger.extend hfits hcapacity hspace rfl rfl rfl rfl
  · rw [hsame]
    exact h.limited
  · rw [hsame, Exporter.held, Exporter.waiting, hwaiting, hheld, ← List.append_assoc, h.order,
      List.append_assoc]
  · obtain ⟨_, hunsent, hcompleted⟩ := h.running hrunning
    rw [hsame, Exporter.waiting, hwaiting, hunsent]
    exact ⟨hreceiving, rfl, hcompleted⟩
  · rw [hrunning] at hover
    cases hover

theorem Sound.submit (h : Sound config events s gone unsent) (input : Option (ρ × Nat)) :
    ∃ unsent, Sound config (events ++ [.submits (submit config input s).1 input])
      (submit config input s).2 gone unsent := by
  unfold Telemetry.submit
  simp only
  split
  · exact ⟨unsent, h.calls rfl rfl rfl rfl rfl rfl rfl rfl rfl rfl h.waiters⟩
  split
  · exact ⟨unsent, h.calls rfl rfl rfl rfl rfl rfl rfl rfl rfl rfl h.waiters⟩
  split
  · exact ⟨unsent, h.calls rfl rfl rfl rfl rfl rfl rfl rfl rfl rfl h.waiters⟩
  rename_i hlarge
  split
  · exact ⟨unsent, h.calls rfl rfl rfl rfl rfl rfl rfl rfl rfl rfl h.waiters⟩
  rename_i hfull
  split
  · exact ⟨unsent, h.calls rfl rfl rfl rfl rfl rfl rfl rfl rfl rfl h.waiters⟩
  rename_i hbytes
  split
  · rename_i hsend
    have hreceiving : s.receiving = true := by
      unfold Exporter.trySend at hsend
      split at hsend
      · cases hsend
      · rename_i hreceiving
        exact Bool.eq_true_of_not_eq_false hreceiving
    exact ⟨_, h.extend hreceiving (by omega) (by omega) (by omega)⟩
  · exact ⟨unsent, h.calls rfl rfl rfl rfl rfl rfl rfl rfl rfl rfl h.waiters⟩
  · exact ⟨unsent, h.calls rfl rfl rfl rfl rfl rfl rfl rfl rfl rfl h.waiters⟩

/-! ## The batch of the worker -/

theorem batchLength_append (items others : List (PendingLog ρ)) :
    batchLength (items ++ others) = batchLength items + batchLength others := by
  simp [batchLength]

/-- The last of the first accepted records has their number. -/
theorem Sound.sequence_last (h : Sound config events s gone unsent) {first rest : List (PendingLog ρ)}
    (hlog : gone ++ s.held = first ++ rest) {item : PendingLog ρ} (hlast : first.getLast? = some item) :
    item.sequence = first.length := by
  have hne : first ≠ [] := by
    rintro rfl
    cases hlast
  have hpos : 0 < first.length := List.length_pos_iff.2 hne
  have hget : (gone ++ s.held)[first.length - 1]? = some item := by
    rw [hlog, List.getElem?_append_left (by omega), ← List.getLast?_eq_getElem?]
    exact hlast
  have hsequence := h.ledger.numbered _ _ hget
  omega

/-- The batch is sent. -/
theorem Sound.sends (h : Sound config events s gone unsent) (hphase : s.worker.phase = .looping)
    {command : ExportControl} (hdue : s.worker.due config command = true) :
    ∃ unsent, Sound config (events ++ [.sends s.worker.batch])
      { s with worker := s.worker.turn config command } gone unsent := by
  have hcollects : s.worker.phase.collects = true := by
    rw [hphase]
    rfl
  have hrunning : s.worker.phase.over = false := by
    rw [hphase]
    rfl
  obtain ⟨hreceiving, hunsent, hcompleted⟩ := h.running hrunning
  obtain ⟨hbytes, hlimit⟩ := h.fits.bytes hcollects
  have hnonempty : s.worker.batch ≠ [] := by
    rintro hempty
    rw [Worker.due, hempty] at hdue
    cases hdue
  have hsent : sent (events ++ [.sends s.worker.batch]) = sent events ++ [s.worker.batch] :=
    sent_append _ _
  have hheld : s.held = s.waiting := by
    rw [Exporter.held, hphase]
    rfl
  have hlog : gone ++ s.held =
      ((sent events).flatten ++ s.worker.batch) ++ (s.worker.next.toList ++ s.queue) := by
    rw [← h.order, hunsent, Exporter.waiting, List.append_assoc]
  obtain ⟨item, hitem⟩ := Option.isSome_iff_exists.1 (List.getLast?_isSome.2 hnonempty)
  have hsequence := h.sequence_last hlog
    (show ((sent events).flatten ++ s.worker.batch).getLast? = some item by
      rw [List.getLast?_append, hitem, Option.some_or])
  refine ⟨s.worker.next.toList ++ s.queue, ?_⟩
  rw [Worker.turn, if_pos hdue]
  have hheld' : s.worker.batch ++ ([] ++ (s.worker.next.toList ++ s.queue)) = s.held := by
    rw [hheld, Exporter.waiting, List.nil_append]
  refine ⟨?_, ⟨fun hnot => (nomatch hnot), fun _ => rfl, Nat.zero_le _, fun _ hnot => (nomatch hnot),
    fun _ => .inr rfl⟩, ?_, ?_, fun _ => ⟨hreceiving, rfl, ?_⟩, fun hover => (nomatch hover),
    fun _ hnot => (nomatch hnot), h.progress, fun hstopped => ?_, h.waiters⟩
  · rw [Exporter.held, Exporter.waiting]
    simp only [Phase.inFlight]
    rw [hheld']
    exact h.ledger.of_eq rfl rfl rfl rfl rfl
  · intro batch hbatch
    rw [hsent, List.mem_append, List.mem_singleton] at hbatch
    rcases hbatch with hbatch | rfl
    · exact h.limited batch hbatch
    · exact ⟨hnonempty, h.fits.length, hbytes ▸ hlimit⟩
  · rw [hsent, Exporter.held, Exporter.waiting]
    simp only [Phase.inFlight]
    rw [hheld', hlog, List.flatten_append, List.flatten_singleton]
  · rw [hsent, List.flatten_append, List.flatten_singleton]
    simp only [hitem, Option.map_some, Option.getD_some]
    exact hsequence
  · rw [h.not_stopped hrunning] at hstopped
    cases hstopped

/-- A record goes from the next slot or from the channel to the batch. -/
theorem Sound.pushes (h : Sound config events s gone unsent) {item : PendingLog ρ}
    {later : List (PendingLog ρ)} (hphase : s.worker.phase.collects = true)
    (hwaiting : s.waiting = s.worker.batch ++ (item :: later))
    (hspace : s.worker.batchBytes + (item.bytes + 8) ≤ config.maxBatchBytes)
    (hroom : s.worker.batch.length < config.maxBatchRecords) :
    Sound config (events ++ [.internal])
      { s with
        queue := later
        worker := { s.worker.push item with next := none, phase := .looping } } gone unsent := by
  obtain ⟨hflight, hrunning⟩ := inFlight_of_collects hphase
  have hpushed : (s.worker.batch ++ [item]) ++ (([] : List (PendingLog ρ)) ++ later) = s.waiting := by
    rw [hwaiting, List.nil_append, List.append_assoc, List.singleton_append]
  have hheld : [] ++ s.waiting = s.held := by rw [Exporter.held, hflight]
  have hsame := sent_internal events
  obtain ⟨hbytes, _⟩ := h.fits.bytes hphase
  refine ⟨?_, ⟨fun _ => ⟨?_, hspace⟩, fun hnot => (nomatch hnot), ?_, fun _ hnot => (nomatch hnot),
    fun hnot => (nomatch hnot)⟩, ?_, ?_, fun _ => ?_, fun hover => (nomatch hover),
    fun _ hnot => (nomatch hnot), h.progress, fun hstopped => ?_, h.waiters⟩
  · simp only [Exporter.held, Exporter.waiting, Phase.inFlight, Worker.push, Option.toList_none]
    rw [hpushed, hheld]
    exact h.ledger.of_eq rfl rfl rfl rfl rfl
  · simp only [Worker.push, batchLength_append, hbytes]
    simp [batchLength, Nat.add_assoc]
  · simp only [Worker.push, List.length_append, List.length_singleton]
    omega
  · rw [hsame]
    exact h.limited
  · simp only [Exporter.held, Exporter.waiting, Phase.inFlight, Worker.push, Option.toList_none]
    rw [hsame, hpushed, hheld]
    exact h.order
  · simp only [Exporter.waiting, Worker.push, Option.toList_none]
    rw [hsame, hpushed]
    exact h.running hrunning
  · rw [h.not_stopped hrunning] at hstopped
    cases hstopped

/-- A record of the next slot finds its batch empty. -/
theorem Sound.turns (h : Sound config events s gone unsent) (hphase : s.worker.phase = .looping)
    {command : ExportControl} (hdue : s.worker.due config command = false) :
    Sound config (events ++ [.internal]) { s with worker := s.worker.turn config command }
      gone unsent := by
  have hcollects : s.worker.phase.collects = true := by
    rw [hphase]
    rfl
  have hready : s.worker.batch = [] ∨
      s.worker.flush = false ∧ s.worker.batch.length < config.maxBatchRecords := by
    rcases List.eq_nil_or_concat s.worker.batch with hempty | ⟨init, last, hbatch⟩
    · exact .inl hempty
    · refine .inr ?_
      have hnonempty : s.worker.batch.isEmpty = false := by
        rw [hbatch]
        simp
      simp only [Worker.due, hnonempty, Bool.not_false, Bool.true_and, Bool.or_eq_false_iff,
        decide_eq_false_iff_not, not_le] at hdue
      exact ⟨hdue.1.1.1, hdue.1.2⟩
  have hroom : s.worker.batch.length < config.maxBatchRecords := by
    rcases hready with hempty | ⟨_, hlt⟩
    · rw [hempty]
      exact config.records_pos
    · exact hlt
  have hnot : ¬s.worker.due config command = true := by
    rw [hdue]
    exact Bool.false_ne_true
  rw [Worker.turn, if_neg hnot]
  split
  · exact h.idles hcollects rfl rfl rfl rfl rfl (fun _ hnot => nomatch hnot) h.fits.next
  split
  · rename_i item hnext
    have hempty : s.worker.batch = [] := by
      rcases hready with hempty | ⟨hflush, _⟩
      · exact hempty
      · rcases h.fits.next (by rw [hnext]; rfl) with htrue | hempty
        · rw [hflush] at htrue
          cases htrue
        · exact hempty
    have hwaiting : s.waiting = s.worker.batch ++ (item :: s.queue) := by
      rw [Exporter.waiting, hnext]
      rfl
    have hitem : item ∈ s.held := by
      rw [Exporter.held, hwaiting]
      simp
    have hfits := h.ledger.fits item hitem
    obtain ⟨hbytes, _⟩ := h.fits.bytes hcollects
    refine h.pushes hcollects hwaiting ?_ hroom
    rw [hbytes, hempty]
    exact hfits
  · rename_i hnext
    refine h.idles hcollects rfl rfl rfl rfl rfl (fun _ _ => ⟨hroom, hnext⟩) fun hsome => ?_
    rw [hnext] at hsome
    cases hsome

/-- The worker takes a record from the channel. -/
theorem Sound.receives (h : Sound config events s gone unsent) {command : ExportControl}
    {item : PendingLog ρ} {later : List (PendingLog ρ)}
    (hphase : s.worker.phase = .selecting command) (hqueue : s.queue = item :: later) :
    Sound config (events ++ [.internal])
      { s with queue := later, worker := s.worker.accept config item } gone unsent := by
  have hcollects : s.worker.phase.collects = true := by
    rw [hphase]
    rfl
  obtain ⟨hflight, hrunning⟩ := inFlight_of_collects hcollects
  obtain ⟨hroom, hnext⟩ := h.fits.room command hphase
  have hwaiting : s.waiting = s.worker.batch ++ (item :: later) := by
    rw [Exporter.waiting, hnext, hqueue]
    rfl
  unfold Worker.accept
  split
  · have hheld : s.held = s.worker.batch ++ (item :: later) := by
      rw [Exporter.held, hflight, hwaiting]
      rfl
    have hsame := sent_internal events
    refine ⟨?_, ⟨fun _ => h.fits.bytes hcollects, fun hnot => (nomatch hnot), h.fits.length,
      fun _ hnot => (nomatch hnot), fun _ => .inl rfl⟩, ?_, ?_, fun _ => ?_,
      fun hover => (nomatch hover), fun _ hnot => (nomatch hnot), h.progress, fun hstopped => ?_,
      h.waiters⟩
    · have hinternal : accepted [(.internal : Event ρ)] = [] := rfl
      have hledger := h.ledger.of_eq hinternal rfl rfl rfl rfl
      rw [hheld] at hledger
      exact hledger
    · rw [hsame]
      exact h.limited
    · rw [hsame, h.order, hheld]
      rfl
    · obtain ⟨hreceiving, hunsent, hcompleted⟩ := h.running hrunning
      rw [hsame]
      exact ⟨hreceiving, hunsent.trans hwaiting, hcompleted⟩
    · rw [h.not_stopped hrunning] at hstopped
      cases hstopped
  · rename_i hspace
    have hpushed := h.pushes hcollects hwaiting (by omega) hroom
    have hworker : ({ s.worker.push item with next := none, phase := .looping } : Worker ρ) =
        { s.worker.push item with phase := .looping } := by
      simp only [Worker.push, hnext]
    rw [hworker] at hpushed
    exact hpushed

/-! ## Sending and settling -/

/-- The worker is between two attempts at a batch, or begins one. -/
theorem Sound.attempts (h : Sound config events s gone unsent) {batch : List (PendingLog ρ)}
    {phase : Phase ρ} {stats : ExportStats}
    (hphase : s.worker.phase = .sending batch ∨ s.worker.phase = .backoff batch)
    (hphase' : phase = .sending batch ∨ phase = .backoff batch)
    (htotal : stats.accepted = s.stats.accepted) (hsettled : stats.settled = s.stats.settled)
    (hrecords : stats.pendingRecords = s.stats.pendingRecords)
    (hbytes : stats.pendingBytes = s.stats.pendingBytes) :
    Sound config (events ++ [.internal])
      { s with stats := stats, worker := { s.worker with phase := phase } } gone unsent := by
  have hold : s.worker.phase.inFlight = batch ∧ s.worker.phase.over = false ∧
      s.worker.phase.collects = false := by
    rcases hphase with hphase | hphase
    · rw [hphase]
      exact ⟨rfl, rfl, rfl⟩
    · rw [hphase]
      exact ⟨rfl, rfl, rfl⟩
  have hnew : phase.inFlight = batch ∧ phase.over = false ∧ phase.collects = false ∧
      (∀ command, phase ≠ .selecting command) ∧ ∀ completed, phase ≠ .counted completed := by
    rcases hphase' with rfl | rfl
    · exact ⟨rfl, rfl, rfl, fun _ hnot => (nomatch hnot), fun _ hnot => (nomatch hnot)⟩
    · exact ⟨rfl, rfl, rfl, fun _ hnot => (nomatch hnot), fun _ hnot => (nomatch hnot)⟩
  obtain ⟨hflight, hrunning, hcollects⟩ := hold
  obtain ⟨hflight', hrunning', hcollects', hselecting, hcounted⟩ := hnew
  have hsame := sent_internal events
  have hheld : phase.inFlight ++ s.waiting = s.held := by
    rw [Exporter.held, hflight, hflight']
  refine ⟨?_, ⟨fun hnot => ?_, fun _ => h.fits.empty hcollects, h.fits.length,
    fun command hnot => absurd hnot (hselecting command), h.fits.next⟩, ?_, ?_, fun _ => ?_,
    fun hover => ?_, fun completed hnot => absurd hnot (hcounted completed), h.progress,
    fun hstopped => ?_, fun waiter hwaiter => htotal ▸ h.waiters waiter hwaiter⟩
  · show Ledger config _ stats (phase.inFlight ++ s.waiting) gone
    rw [hheld]
    exact h.ledger.of_eq rfl htotal hsettled hrecords hbytes
  · have hnot : phase.collects = true := hnot
    rw [hcollects'] at hnot
    cases hnot
  · rw [hsame]
    exact h.limited
  · show _ = gone ++ (phase.inFlight ++ s.waiting)
    rw [hsame, hheld]
    exact h.order
  · rw [hsame]
    exact h.running hrunning
  · have hover : phase.over = true := hover
    rw [hrunning'] at hover
    cases hover
  · rw [h.not_stopped hrunning] at hstopped
    cases hstopped

/-- The batch in flight gets its result. -/
theorem Sound.settles (h : Sound config events s gone unsent) {batch : List (PendingLog ρ)}
    {result : BatchResult}
    (hphase : s.worker.phase = .sending batch ∨ s.worker.phase = .backoff batch)
    (hrejected : ∀ rejected warning, result = .delivered rejected warning → rejected ≤ batch.length) :
    Sound config (events ++ [.internal])
      { s with stats := s.stats.settle batch result, worker := { s.worker with phase := .settled } }
      (gone ++ batch) unsent := by
  have hold : s.worker.phase.inFlight = batch ∧ s.worker.phase.over = false ∧
      s.worker.phase.collects = false := by
    rcases hphase with hphase | hphase
    · rw [hphase]
      exact ⟨rfl, rfl, rfl⟩
    · rw [hphase]
      exact ⟨rfl, rfl, rfl⟩
  obtain ⟨hflight, hrunning, hcollects⟩ := hold
  obtain ⟨htotal, hrecords, hbytes⟩ := settle_fields s.stats batch result
  have hsame := sent_internal events
  have hheld : s.held = batch ++ s.waiting := by rw [Exporter.held, hflight]
  refine ⟨?_, ⟨fun hnot => (nomatch hnot), fun _ => h.fits.empty hcollects, h.fits.length,
    fun _ hnot => (nomatch hnot), h.fits.next⟩, ?_, ?_, fun _ => ?_, fun hover => (nomatch hover),
    fun _ hnot => (nomatch hnot), ?_, fun hstopped => ?_,
    fun waiter hwaiter => htotal ▸ h.waiters waiter hwaiter⟩
  · have hledger := h.ledger
    rw [hheld] at hledger
    exact hledger.settle rfl htotal (settled_settle hrejected) hrecords hbytes
  · rw [hsame]
    exact h.limited
  · show _ = (gone ++ batch) ++ s.waiting
    rw [hsame, h.order, hheld, List.append_assoc]
  · rw [hsame]
    exact h.running hrunning
  · have hle := h.progress
    show s.progress.completed ≤ (gone ++ batch).length
    rw [List.length_append]
    omega
  · rw [h.not_stopped hrunning] at hstopped
    cases hstopped

/-- The progress learns of the settled batch. -/
theorem Sound.reports (h : Sound config events s gone unsent) (hphase : s.worker.phase = .settled) :
    Sound config (events ++ [.internal])
      { s with
        progress := { completed := s.worker.completed, stopped := false }
        worker := { s.worker with
          batchBytes := config.envelopeBytes
          flush := false
          phase := .looping } } gone unsent := by
  have hrunning : s.worker.phase.over = false := by
    rw [hphase]
    rfl
  have hempty : s.worker.batch = [] := h.fits.empty (by rw [hphase]; rfl)
  have hheld : s.held = s.waiting := by
    rw [Exporter.held, hphase]
    rfl
  obtain ⟨hreceiving, hunsent, hcompleted⟩ := h.running hrunning
  have hsame := sent_internal events
  have hlength : (sent events).flatten.length = gone.length := by
    have horder := congrArg List.length h.order
    rw [hunsent, hheld, List.length_append, List.length_append] at horder
    omega
  refine ⟨?_, ⟨fun _ => ⟨?_, Nat.le_of_lt config.envelope_lt⟩, fun hnot => (nomatch hnot),
    h.fits.length, fun _ hnot => (nomatch hnot), fun _ => .inr hempty⟩, ?_, ?_, fun _ => ?_,
    fun hover => (nomatch hover), fun _ hnot => (nomatch hnot), ?_, fun hstopped => (nomatch hstopped),
    h.waiters⟩
  · show Ledger config _ s.stats ([] ++ s.waiting) gone
    rw [List.nil_append, ← hheld]
    exact h.ledger.of_eq rfl rfl rfl rfl rfl
  · simp only [hempty]
    rfl
  · rw [hsame]
    exact h.limited
  · show _ = gone ++ ([] ++ s.waiting)
    rw [hsame, List.nil_append, ← hheld]
    exact h.order
  · rw [hsame]
    exact ⟨hreceiving, hunsent, hcompleted⟩
  · show s.worker.completed ≤ gone.length
    omega

/-! ## The end of the worker -/

theorem Sound.releases (h : Sound config events s gone unsent) (hphase : s.worker.phase = .leaving) :
    Sound config (events ++ [.internal])
      { s with
        receiving := false
        queue := []
        worker := { s.worker with
          batch := []
          next := none
          phase := .released (s.worker.batch ++ (s.worker.next.toList ++ s.queue)) } }
      gone unsent := by
  have hrunning : s.worker.phase.over = false := by
    rw [hphase]
    rfl
  have hheld : s.held = s.waiting := by
    rw [Exporter.held, hphase]
    rfl
  have hsame := sent_internal events
  have hreleased : (s.worker.batch ++ (s.worker.next.toList ++ s.queue)) ++
      (([] : List (PendingLog ρ)) ++ ([] ++ [])) = s.held := by
    rw [hheld, Exporter.waiting]
    simp
  refine ⟨?_, ⟨fun hnot => (nomatch hnot), fun _ => rfl, Nat.zero_le _, fun _ hnot => (nomatch hnot),
    fun _ => .inr rfl⟩, ?_, ?_, fun hnot => (nomatch hnot), fun _ => ⟨rfl, rfl⟩,
    fun _ hnot => (nomatch hnot), h.progress, fun hstopped => ?_, h.waiters⟩
  · simp only [Exporter.held, Exporter.waiting, Phase.inFlight, Option.toList_none]
    rw [hreleased]
    exact h.ledger.of_eq rfl rfl rfl rfl rfl
  · rw [hsame]
    exact h.limited
  · simp only [Exporter.held, Exporter.waiting, Phase.inFlight, Option.toList_none]
    rw [hsame, hreleased]
    exact h.order
  · rw [h.not_stopped hrunning] at hstopped
    cases hstopped

theorem Sound.counts (h : Sound config events s gone unsent) {lost : List (PendingLog ρ)}
    (hphase : s.worker.phase = .released lost) :
    Sound config (events ++ [.internal])
      { s with
        stats := { s.stats with
          shutdownDropped := s.stats.shutdownDropped + s.stats.pendingRecords
          pendingRecords := 0
          pendingBytes := 0
          closed := true }
        worker := { s.worker with phase := .counted s.stats.accepted } }
      (gone ++ lost) unsent := by
  obtain ⟨hreceiving, hwaiting⟩ := h.halted (by rw [hphase]; rfl)
  have hheld : s.held = lost ++ [] := by
    rw [Exporter.held, hphase, hwaiting]
    rfl
  have hlost : s.stats.pendingRecords = lost.length := by
    rw [h.ledger.records, hheld, List.append_nil]
  have hlostBytes : s.stats.pendingBytes = totalBytes lost := by
    rw [h.ledger.bytes, hheld, List.append_nil]
  have hsame := sent_internal events
  have hcollects : s.worker.phase.collects = false := by
    rw [hphase]
    rfl
  refine ⟨?_, ⟨fun hnot => (nomatch hnot), fun _ => h.fits.empty hcollects, h.fits.length,
    fun _ hnot => (nomatch hnot), h.fits.next⟩, ?_, ?_, fun hnot => (nomatch hnot),
    fun _ => ⟨hreceiving, hwaiting⟩, fun completed hcounted => ?_, ?_, fun hstopped => ?_, h.waiters⟩
  · have hledger := h.ledger
    rw [hheld] at hledger
    show Ledger config _ _ ([] ++ s.waiting) (gone ++ lost)
    rw [hwaiting]
    refine hledger.settle rfl rfl ?_ ?_ ?_
    · simp only [ExportStats.settled]
      omega
    · show 0 = s.stats.pendingRecords - lost.length
      omega
    · show 0 = s.stats.pendingBytes - totalBytes lost
      omega
  · rw [hsame]
    exact h.limited
  · show _ = (gone ++ lost) ++ ([] ++ s.waiting)
    rw [hsame, h.order, hheld, hwaiting]
    simp
  · cases hcounted
    rw [h.ledger.total, hheld, List.append_nil]
  · have hle := h.progress
    show s.progress.completed ≤ (gone ++ lost).length
    rw [List.length_append]
    omega
  · rw [(h.stopped hstopped).1] at hphase
    cases hphase

theorem Sound.stops (h : Sound config events s gone unsent) {completed : Nat}
    (hphase : s.worker.phase = .counted completed) :
    Sound config (events ++ [.internal])
      { s with
        progress := { completed := completed, stopped := true }
        worker := { s.worker with phase := .stopped } } gone unsent := by
  have hcompleted := h.counted completed hphase
  have hsame := sent_internal events
  have hheld : s.held = [] ++ s.waiting := by
    rw [Exporter.held, hphase]
    rfl
  have hcollects : s.worker.phase.collects = false := by
    rw [hphase]
    rfl
  refine ⟨?_, ⟨fun hnot => (nomatch hnot), fun _ => h.fits.empty hcollects, h.fits.length,
    fun _ hnot => (nomatch hnot), h.fits.next⟩, ?_, ?_, fun hnot => (nomatch hnot),
    fun _ => h.halted (by rw [hphase]; rfl), fun _ hnot => (nomatch hnot), Nat.le_of_eq hcompleted,
    fun _ => ⟨rfl, hcompleted⟩, h.waiters⟩
  · have hledger := h.ledger
    rw [hheld] at hledger
    exact hledger.of_eq rfl rfl rfl rfl rfl
  · rw [hsame]
    exact h.limited
  · rw [hsame, h.order, hheld]
    rfl

end DstServer.Telemetry
