import DstServer.Telemetry.Settlement

/-!
# The accounts of the exporter

Every step keeps the invariant `Sound`, so every run does.  From it follow
the accounts: which counter each record is in, what is pending, what a batch
may hold, and what a flush that returned says.
-/

namespace DstServer.Telemetry

open Lib

variable {ρ : Type} {config : Config} {events : List (Event ρ)} {s t : Exporter ρ}
  {gone unsent : List (PendingLog ρ)}

/-! ## Steps and runs -/

theorem Sound.step (h : Sound config events s gone unsent) {event : Event ρ}
    (hstep : Step config s event t) :
    ∃ gone unsent, Sound config (events ++ [event]) t gone unsent := by
  have hwaits : ∀ stopping, ∀ waiter ∈ s.waiters ++ [⟨s.stats.accepted, stopping⟩],
      waiter.target ≤ s.stats.accepted := by
    intro stopping waiter hwaiter
    rcases List.mem_append.1 hwaiter with hwaiter | hwaiter
    · exact h.waiters waiter hwaiter
    · rw [List.mem_singleton] at hwaiter
      rw [hwaiter]
  have herase : ∀ gone, ∀ waiter ∈ s.waiters.erase gone, waiter.target ≤ s.stats.accepted :=
    fun gone waiter hwaiter => h.waiters waiter (List.mem_of_mem_erase hwaiter)
  have hcollects : ∀ command, s.worker.phase = .selecting command →
      s.worker.phase.collects = true := by
    intro command hphase
    rw [hphase]
    rfl
  cases hstep with
  | submit input => exact ⟨gone, h.submit input⟩
  | flush => exact ⟨gone, unsent, h.calls rfl rfl rfl rfl rfl rfl rfl rfl rfl rfl (hwaits false)⟩
  | raise waiter hwaiter hflush =>
    exact ⟨gone, unsent, h.calls rfl rfl rfl rfl rfl rfl rfl rfl rfl rfl h.waiters⟩
  | takeSender hsender =>
    exact ⟨gone, unsent, h.calls rfl rfl rfl rfl rfl rfl rfl rfl rfl rfl h.waiters⟩
  | beginClose hsender hcontrol =>
    exact ⟨gone, unsent, h.calls rfl rfl rfl rfl rfl rfl rfl rfl rfl rfl h.waiters⟩
  | close hsender =>
    exact ⟨gone, unsent, h.calls rfl rfl rfl rfl rfl rfl rfl rfl rfl rfl (hwaits true)⟩
  | wake waiter hwaiter hready =>
    exact ⟨gone, unsent, h.calls rfl rfl rfl rfl rfl rfl rfl rfl rfl rfl (herase waiter)⟩
  | abandon waiter hwaiter =>
    exact ⟨gone, unsent, h.calls rfl rfl rfl rfl rfl rfl rfl rfl rfl rfl (herase waiter)⟩
  | expire hphase hclosing =>
    exact ⟨gone, unsent, h.idles (by rw [hphase]; rfl) rfl rfl rfl rfl rfl
      (fun _ hnot => nomatch hnot) h.fits.next⟩
  | send hphase hdue => exact ⟨gone, h.sends hphase hdue⟩
  | turn hphase hdue => exact ⟨gone, unsent, h.turns hphase hdue⟩
  | receive command item later hphase hclosed hqueue =>
    exact ⟨gone, unsent, h.receives hphase hqueue⟩
  | disconnected command hphase hclosed hqueue hsender =>
    exact ⟨gone, unsent, h.idles (hcollects command hphase) rfl rfl rfl rfl rfl
      (fun _ hnot => nomatch hnot) h.fits.next⟩
  | tick command hphase =>
    refine ⟨gone, unsent, h.idles (hcollects command hphase) rfl rfl rfl rfl rfl
      (fun _ hnot => nomatch hnot) fun hsome => ?_⟩
    have hsome : s.worker.next.isSome = true := hsome
    rw [(h.fits.room command hphase).2] at hsome
    cases hsome
  | changed command hphase =>
    exact ⟨gone, unsent, h.idles (hcollects command hphase) rfl rfl rfl rfl rfl
      (fun _ hnot => nomatch hnot) h.fits.next⟩
  | deadline command hphase hclosing =>
    exact ⟨gone, unsent, h.idles (hcollects command hphase) rfl rfl rfl rfl rfl
      (fun _ hnot => nomatch hnot) h.fits.next⟩
  | answer batch response result hphase hresult =>
    refine ⟨gone ++ batch, unsent, h.settles (.inl hphase) fun rejected warning hdelivered => ?_⟩
    rw [hdelivered] at hresult
    exact receive_rejected hresult
  | delay batch response error hphase hresult =>
    exact ⟨gone, unsent, h.attempts (.inl hphase) (.inr rfl) rfl rfl rfl rfl⟩
  | retry batch hphase => exact ⟨gone, unsent, h.attempts (.inr hphase) (.inl rfl) rfl rfl rfl rfl⟩
  | timeout batch hphase =>
    exact ⟨gone ++ batch, unsent, h.settles hphase fun _ _ hnot => nomatch hnot⟩
  | report hphase => exact ⟨gone, unsent, h.reports hphase⟩
  | release hphase => exact ⟨gone, unsent, h.releases hphase⟩
  | count lost hphase => exact ⟨gone ++ lost, unsent, h.counts hphase⟩
  | stop completed hphase => exact ⟨gone, unsent, h.stops hphase⟩

theorem sound_initial (config : Config) (ρ : Type) :
    Sound config [] (initial config ρ) [] [] where
  ledger := {
    accepted := rfl
    numbered := fun _ _ h => nomatch h
    total := rfl
    settled := rfl
    records := rfl
    bytes := rfl
    capacity := Nat.zero_le _
    space := Nat.zero_le _
    fits := fun _ h => nomatch h }
  fits := {
    bytes := fun _ => ⟨rfl, Nat.le_of_lt config.envelope_lt⟩
    empty := fun h => nomatch h
    length := Nat.zero_le _
    room := fun _ h => nomatch h
    next := fun h => nomatch h }
  limited _ h := nomatch h
  order := rfl
  running _ := ⟨rfl, rfl, rfl⟩
  halted h := nomatch h
  counted _ h := nomatch h
  progress := Nat.le_refl 0
  stopped h := nomatch h
  waiters _ h := nomatch h

theorem exists_sound (h : Run (Step config) (initial config ρ) events s) :
    ∃ gone unsent, Sound config events s gone unsent := by
  induction h with
  | nil => exact ⟨[], [], sound_initial config ρ⟩
  | snoc _ hstep ih =>
    obtain ⟨gone, unsent, hsound⟩ := ih
    exact hsound.step hstep

/-! ## What the invariant says -/

theorem Sound.accepted_length (h : Sound config events s gone unsent) :
    s.stats.accepted = (accepted events).length := by
  rw [h.ledger.total, ← h.ledger.accepted, List.length_map]

theorem Sound.conserved (h : Sound config events s gone unsent) :
    s.stats.accepted = s.stats.exported + s.stats.rejected + s.stats.failed + s.stats.timedOut +
      s.stats.shutdownDropped + s.stats.pendingRecords := by
  have hsettled := h.ledger.settled
  have hrecords := h.ledger.records
  have htotal := h.ledger.total
  rw [ExportStats.settled] at hsettled
  rw [List.length_append] at htotal
  omega

/-- A batch in flight is still pending. -/
theorem Sound.in_flight (h : Sound config events s gone unsent) {batch : List (PendingLog ρ)}
    (hphase : s.worker.phase = .sending batch ∨ s.worker.phase = .backoff batch) :
    batch.length ≤ s.stats.pendingRecords ∧ totalBytes batch ≤ s.stats.pendingBytes := by
  have hflight : s.worker.phase.inFlight = batch := by
    rcases hphase with hphase | hphase
    · rw [hphase]
      rfl
    · rw [hphase]
      rfl
  have hheld : s.held = batch ++ s.waiting := by rw [Exporter.held, hflight]
  rw [h.ledger.records, h.ledger.bytes, hheld, List.length_append, totalBytes_append]
  omega

theorem Sound.order_prefix (h : Sound config events s gone unsent) :
    (sent events).flatten.map PendingLog.payload <+: accepted events := by
  rw [← h.ledger.accepted, ← h.order, List.map_append]
  exact List.prefix_append _ _

/-- A held record has a number after those that are gone. -/
theorem Sound.lt_sequence (h : Sound config events s gone unsent) {item : PendingLog ρ}
    (hitem : item ∈ s.held) : gone.length < item.sequence := by
  obtain ⟨i, hi⟩ := List.mem_iff_getElem?.1 hitem
  have hget : (gone ++ s.held)[gone.length + i]? = some item := by
    rw [List.getElem?_append_right (Nat.le_add_right _ _), Nat.add_sub_cancel_left]
    exact hi
  have hsequence := h.ledger.numbered _ _ hget
  omega

/-- Whoever waits wakes up when the records before its target are settled. -/
theorem Sound.target_le (h : Sound config events s gone unsent) {waiter : Waiter}
    (hwaiter : waiter ∈ s.waiters) (hready : s.progress.stopped = true ∨
      waiter.stopping = false ∧ waiter.target ≤ s.progress.completed) :
    waiter.target ≤ s.progress.completed := by
  rcases hready with hstopped | ⟨_, hle⟩
  · obtain ⟨hphase, hcompleted⟩ := h.stopped hstopped
    obtain ⟨_, hwaiting⟩ := h.halted (by rw [hphase]; rfl)
    have hheld : s.held = [] := by
      rw [Exporter.held, hphase, hwaiting]
      rfl
    have htarget := h.waiters waiter hwaiter
    rw [h.ledger.total, hheld, List.append_nil] at htarget
    omega
  · exact hle

/-! ## Main results -/

/-- The records that were submitted, by any outcome. -/
def submissions (events : List (Event ρ)) : Nat :=
  events.countP fun event => match event with
    | .submits _ _ => true
    | _ => false

/-- The first `n` accepted records have a result, and no other holder. -/
structure SettledThrough (n : Nat) (s : Exporter ρ) : Prop where
  settled : n ≤ s.stats.settled
  held : ∀ item ∈ s.held, n < item.sequence

structure Accounts (config : Config) (events : List (Event ρ)) (s : Exporter ρ) : Prop where
  /-- Each submission is in one counter, that of its outcome. -/
  outcome : ∀ outcome, s.stats.outcome outcome = submitted outcome events
  submissions : submissions events = s.stats.accepted + s.stats.invalid + s.stats.tooLarge +
    s.stats.queueFull + s.stats.queueBytesFull + s.stats.closedDropped
  conserved : s.stats.accepted = s.stats.exported + s.stats.rejected + s.stats.failed +
    s.stats.timedOut + s.stats.shutdownDropped + s.stats.pendingRecords
  records : s.stats.pendingRecords ≤ config.queueCapacity
  bytes : s.stats.pendingBytes ≤ config.queueBytes
  /-- What the result of a batch takes off the pending ones is there. -/
  inFlight : ∀ batch, s.worker.phase = .sending batch ∨ s.worker.phase = .backoff batch →
    batch.length ≤ s.stats.pendingRecords ∧ totalBytes batch ≤ s.stats.pendingBytes
  order : (sent events).flatten.map PendingLog.payload <+: accepted events
  limited : ∀ batch ∈ sent events, Limited config batch
  flushed : ∀ (earlier later : List (Event ρ)) (waiter : Waiter) (ok : Bool),
    events = earlier ++ .waits waiter :: (later ++ [.returns waiter ok]) →
      ok = true ∧ SettledThrough (accepted earlier).length s

theorem submissions_eq (events : List (Event ρ)) :
    submissions events = submitted (some .accepted) events + submitted none events +
      submitted (some .tooLarge) events + submitted (some .queueFull) events +
      submitted (some .byteLimit) events + submitted (some .closed) events := by
  induction events with
  | nil => rfl
  | cons event rest ih =>
    simp only [submissions, submitted, List.countP_cons] at ih ⊢
    cases event with
    | submits outcome input =>
      rcases outcome with _ | _ | _ | _ | _ | _
      · simp
        omega
      · simp
        omega
      · simp
        omega
      · simp
        omega
      · simp
        omega
      · simp
        omega
    | _ => simpa using ih

theorem flushed_of_run {earlier later : List (Event ρ)} {waiter : Waiter} {ok : Bool}
    (h : Run (Step config) (initial config ρ)
      (earlier ++ .waits waiter :: (later ++ [.returns waiter ok])) s) :
    ok = true ∧ SettledThrough (accepted earlier).length s := by
  obtain ⟨before, called, hbefore, hcall, hrest⟩ := h.split_at
  obtain ⟨last, hlater, hreturn⟩ := Run.concat_iff.1 hrest
  obtain ⟨_, _, hfirst⟩ := exists_sound hbefore
  have htarget : waiter.target = (accepted earlier).length := by
    rw [← hfirst.accepted_length]
    cases hcall with
    | flush => rfl
    | close => rfl
  have hlast : Run (Step config) (initial config ρ) (earlier ++ ([.waits waiter] ++ later)) last :=
    hbefore.append ((Run.nil.snoc hcall).append hlater)
  obtain ⟨gone, unsent, hsound⟩ := exists_sound hlast
  rw [← htarget]
  cases hreturn with
  | wake _ hwaiter hready =>
    have hle := hsound.target_le hwaiter hready
    have hgone := hsound.progress
    refine ⟨decide_eq_true hle, ?_, fun item hitem => ?_⟩
    · show waiter.target ≤ last.stats.settled
      rw [hsound.ledger.settled]
      omega
    · have hlt := hsound.lt_sequence hitem
      omega

theorem exporter_accounts (h : Run (Step config) (initial config ρ) events s) :
    Accounts config events s := by
  obtain ⟨gone, unsent, hsound⟩ := exists_sound h
  have houtcome := outcome_run h
  refine ⟨houtcome, ?_, hsound.conserved, ?_, ?_, fun batch hphase => hsound.in_flight hphase,
    hsound.order_prefix, hsound.limited, ?_⟩
  · rw [submissions_eq, ← houtcome, ← houtcome, ← houtcome, ← houtcome, ← houtcome, ← houtcome]
    rfl
  · rw [hsound.ledger.records]
    exact hsound.ledger.capacity
  · rw [hsound.ledger.bytes]
    exact hsound.ledger.space
  · rintro earlier later waiter ok rfl
    exact flushed_of_run h

def sampleConfig : Config where
  queueCapacity := 2048
  queueBytes := 16777216
  maxBatchRecords := 512
  maxBatchBytes := 3145728
  envelopeBytes := 256
  capacity_pos := by decide
  queueBytes_pos := by decide
  records_pos := by decide
  envelope_lt := by decide

/-- One record is submitted, flushed and exported. -/
theorem exporter_accounts_sample : ∃ (events : List (Event Unit)) (s : Exporter Unit),
    s.stats.exported = 1 ∧ .returns ⟨1, false⟩ true ∈ events ∧ Accounts sampleConfig events s := by
  let submitted := (submit sampleConfig (some ((), 100)) (initial sampleConfig Unit)).2
  let flushing : Exporter Unit :=
    { submitted with waiters := [⟨1, false⟩], control := { flushThrough := 1 } }
  let item : PendingLog Unit := { record := (), bytes := 100, sequence := 1 }
  let selecting : Exporter Unit :=
    { flushing with worker := flushing.worker.turn sampleConfig flushing.control }
  let received : Exporter Unit :=
    { selecting with queue := [], worker := selecting.worker.accept sampleConfig item }
  let sending : Exporter Unit :=
    { received with worker := received.worker.turn sampleConfig received.control }
  have hsubmit : Run (Step sampleConfig) (initial sampleConfig Unit) _ submitted :=
    Run.nil.snoc (.submit _ (some ((), 100)))
  have hraised : Run (Step sampleConfig) (initial sampleConfig Unit) _ flushing :=
    (hsubmit.snoc (.flush submitted)).snoc (.raise _ ⟨1, false⟩ (by decide) rfl)
  have hsending : Run (Step sampleConfig) (initial sampleConfig Unit) _ sending :=
    ((hraised.snoc (.turn flushing rfl rfl)).snoc
      (.receive selecting flushing.control item [] rfl rfl rfl)).snoc (.send received rfl rfl)
  have hreturned := ((hsending.snoc (.answer sending [item] (.response none) _ rfl rfl)).snoc
    (.report _ rfl)).snoc (.wake _ ⟨1, false⟩ (by decide) (.inr ⟨rfl, by decide⟩))
  exact ⟨_, _, rfl, List.mem_append_right _ (List.mem_singleton.2 rfl), exporter_accounts hreturned⟩

end DstServer.Telemetry
