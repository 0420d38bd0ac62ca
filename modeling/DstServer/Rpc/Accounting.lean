import DstServer.Rpc.Subscription

/-!
# Every record of a stream is accounted for

Each position of the stream that the receiver has passed has one `Fate`: the
record was delivered, was too large, or was lost to a lag.  The `Ledger` of
a run cuts these fates into the batches that were returned and the call that
has not returned yet.  What a batch says (`Tells`) are its own fates, so
that nothing is counted in two batches or in none.
-/

namespace DstServer.Rpc

open Lib Outcome

section Accounting

variable {numbers : Numbers}

/-! ## Fates -/

variable (numbers) in
/-- What became of a record that the receiver has passed. -/
inductive Fate where
  | delivered (wire : Wire numbers.Float)
  | oversized
  | lagged

namespace Fate

def wire? : Fate numbers → Option (Wire numbers.Float)
  | .delivered wire => some wire
  | .oversized | .lagged => none

def lost : Fate numbers → Bool
  | .delivered _ => false
  | .oversized | .lagged => true

/-- The record can have this fate. -/
def Fits (fate : Fate numbers) (record : Record) : Prop :=
  match fate with
  | .delivered wire => encoded? numbers record = some wire
  | .oversized => encoded? numbers record = none
  | .lagged => True

/-- The fate of a record that the receiver took. -/
def ofEvent : Option (Wire numbers.Float) → Fate numbers
  | some wire => .delivered wire
  | none => .oversized

theorem fits_ofEvent (record : Record) : (ofEvent (encoded? numbers record)).Fits record := by
  cases h : encoded? numbers record with
  | some wire => exact h
  | none => exact h

/-- Every fate is a delivery or a loss. -/
theorem length_eq (fates : List (Fate numbers)) :
    fates.length = (fates.filterMap wire?).length + fates.countP lost := by
  induction fates with
  | nil => rfl
  | cons fate rest ih =>
    cases fate with
    | delivered wire =>
      simp only [List.length_cons, List.filterMap_cons, wire?, List.countP_cons, lost, ih,
        Bool.false_eq_true, if_false]
      omega
    | oversized =>
      simp only [List.length_cons, List.filterMap_cons, wire?, List.countP_cons, lost, ih, if_true]
      omega
    | lagged =>
      simp only [List.length_cons, List.filterMap_cons, wire?, List.countP_cons, lost, ih, if_true]
      omega

end Fate

/-- These records and this count are what these fates come to. -/
structure Tells (records : List (Wire numbers.Float)) (dropped : Nat) (fates : List (Fate numbers)) :
    Prop where
  records : records = fates.filterMap Fate.wire?
  dropped : dropped = min (fates.countP Fate.lost) maxU64

/-- The most records of a batch. -/
def batchItems : Nat := (maxMessage - 32) / maxEvent

theorem batchItems_eq : batchItems = 15 := by decide

/-- The call that has not returned, with the fates it has seen. -/
structure Tracks (reading : Reading numbers) (now : List (Fate numbers)) : Prop where
  tells : Tells reading.records reading.dropped now
  start : reading.index = 0 → now = []
  length : reading.records.length ≤ reading.index
  index : reading.index ≤ reading.count
  count : reading.count ≤ batchItems

theorem tells_nil : Tells ([] : List (Wire numbers.Float)) 0 [] := ⟨rfl, rfl⟩

theorem Tracks.accept {reading : Reading numbers} {now : List (Fate numbers)}
    (h : Tracks reading now) (hgoing : reading.Going) (event : Option (Wire numbers.Float)) :
    Tracks (reading.accept event) (now ++ [.ofEvent event]) := by
  have hcount := hgoing.1
  have hlength := h.length
  cases event with
  | some wire =>
    refine ⟨⟨?_, ?_⟩, fun hzero => ?_, ?_, hcount, h.count⟩
    · simp [Reading.accept, h.tells.records, Fate.ofEvent, Fate.wire?]
    · simp [Reading.accept, h.tells.dropped, Fate.ofEvent, Fate.lost]
    · cases hzero
    · simpa [Reading.accept] using hlength
  | none =>
    refine ⟨⟨?_, ?_⟩, fun hzero => ?_, ?_, hcount, h.count⟩
    · simp [Reading.accept, h.tells.records, Fate.ofEvent, Fate.wire?]
    · simp only [Reading.accept, saturatingAdd, h.tells.dropped, Fate.ofEvent, List.countP_append,
        List.countP_singleton, Fate.lost, if_true]
      omega
    · cases hzero
    · simp only [Reading.accept]
      omega

theorem Tracks.skip {reading : Reading numbers} {now : List (Fate numbers)}
    (h : Tracks reading now) (hgoing : reading.Going) (skipped : Nat) :
    Tracks (reading.skip skipped) (now ++ List.replicate skipped .lagged) := by
  have hcount := hgoing.1
  have hlength := h.length
  refine ⟨⟨?_, ?_⟩, fun hzero => ?_, ?_, hcount, h.count⟩
  · simp [Reading.skip, h.tells.records, Fate.wire?, List.filterMap_replicate]
  · simp only [Reading.skip, saturatingAdd, h.tells.dropped, List.countP_append,
      List.countP_replicate, Fate.lost, if_true]
    omega
  · cases hzero
  · simp only [Reading.skip]
    omega

/-! ## The receiver -/

variable {s t : Subscriber numbers} {position : Nat}

theorem receive_record {event : Option (Wire numbers.Float)}
    (h : s.receive = (.record event, position)) :
    ∃ record, s.published[s.position]? = some record ∧ event = encoded? numbers record ∧
      position = s.position + 1 := by
  unfold Subscriber.receive at h
  split at h
  · cases h
  split at h
  · cases h
  split at h
  · rename_i record hrecord
    cases h
    exact ⟨record, hrecord, rfl, rfl⟩
  · split at h
    · cases h
    · cases h

/-- A lag goes to the oldest record that is kept. -/
theorem receive_lagged {skipped : Nat} (h : s.receive = (.lagged skipped, position)) :
    position = s.position + skipped ∧ position ≤ s.published.length := by
  unfold Subscriber.receive at h
  split at h
  · cases h
  split at h
  · rename_i hbehind
    cases h
    omega
  split at h
  · cases h
  · split at h
    · cases h
    · cases h

/-! ## The ledger -/

/-- The batches that the events return. -/
def batches (events : List (Event numbers)) : List (Batch numbers) :=
  events.filterMap fun event => match event with
    | .returns batch => some batch
    | .internal => none

theorem batches_internal (returned : List (Batch numbers)) :
    returned ++ batches [.internal] = returned := List.append_nil returned

theorem batches_append (events later : List (Event numbers)) :
    batches (events ++ later) = batches events ++ batches later := List.filterMap_append

structure Ledger (returned : List (Batch numbers)) (s : Subscriber numbers)
    (past : List (List (Fate numbers))) (now : List (Fate numbers)) : Prop where
  position : s.position ≤ s.published.length
  fits : List.Forall₂ Fate.Fits (past.flatten ++ now) (s.published.take s.position)
  returned : List.Forall₂ (fun batch fates => Tells batch.records batch.dropped fates ∧
    batch.records.length ≤ batchItems) returned past
  idle : s.reading = none → now = []
  reading : ∀ reading, s.reading = some reading → Tracks reading now

variable {returned : List (Batch numbers)} {past : List (List (Fate numbers))}
  {now : List (Fate numbers)}

/-- A step that leaves the stream, the receiver and the calls. -/
theorem Ledger.of_eq (h : Ledger returned s past now) (hpublished : t.published = s.published)
    (hposition : t.position = s.position) (hreading : t.reading = s.reading) :
    Ledger returned t past now where
  position := by
    rw [hposition, hpublished]
    exact h.position
  fits := by
    rw [hposition, hpublished]
    exact h.fits
  returned := h.returned
  idle hidle := h.idle (hreading ▸ hidle)
  reading reading hsome := h.reading reading (hreading ▸ hsome)

/-- The call returns its batch. -/
theorem Ledger.finish (h : Ledger returned s past now) {reading : Reading numbers}
    (hreading : s.reading = some reading) (closed : Bool) :
    Ledger (returned ++ [reading.batch closed]) { s with reading := none } (past ++ [now]) [] := by
  have htracks := h.reading reading hreading
  have hlength := htracks.length
  have hindex := htracks.index
  have hcount := htracks.count
  refine ⟨h.position, ?_, ?_, fun _ => rfl, fun _ hsome => nomatch hsome⟩
  · rw [List.flatten_append, List.flatten_singleton, List.append_nil]
    exact h.fits
  · refine List.rel_append h.returned (.cons ⟨htracks.tells, ?_⟩ .nil)
    show reading.records.length ≤ batchItems
    omega

theorem Ledger.step (h : Ledger returned s past now) {event : Event numbers}
    (hstep : Step numbers s event t) :
    ∃ past now, Ledger (returned ++ batches [event]) t past now := by
  cases hstep with
  | publish record hended =>
    refine ⟨past, now, ?_, ?_, by simpa [batches] using h.returned, h.idle, h.reading⟩
    · have hposition := h.position
      show s.position ≤ (s.published ++ [record]).length
      rw [List.length_append]
      omega
    · rw [List.take_append_of_le_length h.position]
      exact h.fits
  | endStream => exact ⟨past, now, (batches_internal returned).symm ▸ h.of_eq rfl rfl rfl⟩
  | callClosed hidle hclosed =>
    have hnow := h.idle hidle
    subst hnow
    refine ⟨past ++ [[]], [], h.position, ?_, ?_, fun _ => rfl, h.reading⟩
    · simpa using h.fits
    · exact List.rel_append h.returned (.cons ⟨tells_nil, Nat.zero_le _⟩ .nil)
  | call maxItems hitems hidle hclosed =>
    have hnow := h.idle hidle
    subst hnow
    refine ⟨past, [], h.position, h.fits, ?_, fun _ => rfl, fun reading hreading => ?_⟩
    · simpa [batches] using h.returned
    · cases hreading
      exact ⟨tells_nil, fun _ => rfl, Nat.le_refl 0, Nat.zero_le _, Nat.min_le_right _ _⟩
  | interrupt reading hreading hfirst hclosed => exact ⟨_, _, h.finish hreading true⟩
  | cancel reading hreading hfirst =>
    have hnow := (h.reading reading hreading).start hfirst
    subst hnow
    refine ⟨past, [], h.position, h.fits, ?_, fun _ => rfl, fun _ hsome => nomatch hsome⟩
    simpa [batches] using h.returned
  | accept reading taken position hreading hgoing hclosed hreceive =>
    obtain ⟨record, hrecord, rfl, rfl⟩ := receive_record hreceive
    have hlt := (List.getElem?_eq_some_iff.1 hrecord).1
    refine ⟨past, now ++ [.ofEvent (encoded? numbers record)], hlt, ?_, ?_, fun hidle => (nomatch hidle),
      fun other hother => ?_⟩
    · rw [← List.append_assoc, List.take_add_one, hrecord]
      exact List.rel_append h.fits (.cons (Fate.fits_ofEvent record) .nil)
    · simpa [batches] using h.returned
    · cases hother
      exact (h.reading reading hreading).accept hgoing _
  | skip reading skipped position hreading hgoing hclosed hreceive =>
    obtain ⟨rfl, hle⟩ := receive_lagged hreceive
    refine ⟨past, now ++ List.replicate skipped .lagged, hle, ?_, ?_, fun hidle => (nomatch hidle),
      fun other hother => ?_⟩
    · have hlength : ((s.published.drop s.position).take skipped).length = skipped := by
        rw [List.length_take, List.length_drop]
        omega
      rw [← List.append_assoc, List.take_add]
      refine List.rel_append h.fits ?_
      rw [List.forall₂_iff_get]
      refine ⟨by rw [List.length_replicate, hlength], fun i hi _ => ?_⟩
      rw [List.get_eq_getElem, List.getElem_replicate]
      trivial
    · simpa [batches] using h.returned
    · cases hother
      exact (h.reading reading hreading).skip hgoing skipped
  | finishClosed reading hreading hgoing hreceive => exact ⟨_, _, h.finish hreading true⟩
  | drain reading hreading hgoing hstarted hreceive =>
    refine ⟨past, now, h.position, h.fits, ?_, fun hidle => (nomatch hidle), fun other hother => ?_⟩
    · simpa [batches] using h.returned
    · cases hother
      have htracks := h.reading reading hreading
      exact ⟨htracks.tells, htracks.start, htracks.length, htracks.index, htracks.count⟩
  | finish reading hreading hdone => exact ⟨_, _, h.finish hreading _⟩
  | close => exact ⟨past, now, (batches_internal returned).symm ▸ h.of_eq rfl rfl rfl⟩
  | detach hclosed hidle =>
    exact ⟨past, now, (batches_internal returned).symm ▸ h.of_eq rfl rfl rfl⟩

theorem exists_ledger {events : List (Event numbers)} (h : Run (Step numbers) {} events s) :
    ∃ past now, Ledger (batches events) s past now := by
  induction h with
  | nil => exact ⟨[], [], Nat.le_refl 0, .nil, .nil, fun _ => rfl, fun _ hsome => nomatch hsome⟩
  | snoc _ hstep ih =>
    obtain ⟨past, now, hledger⟩ := ih
    rw [batches_append]
    exact hledger.step hstep

/-! ## What the ledger comes to -/

/-- The delivered ones of these records, in their order. -/
theorem exists_originals {fates : List (Fate numbers)} {records : List Record}
    (h : List.Forall₂ Fate.Fits fates records) :
    ∃ originals : List Record, originals.Sublist records ∧
      List.Forall₂ (fun record wire => encoded? numbers record = some wire) originals
        (fates.filterMap Fate.wire?) := by
  induction h with
  | nil => exact ⟨[], .slnil, .nil⟩
  | @cons fate record _ _ hfits _ ih =>
    obtain ⟨originals, hsublist, hencoded⟩ := ih
    cases fate with
    | delivered wire => exact ⟨record :: originals, hsublist.cons_cons record, .cons hfits hencoded⟩
    | oversized => exact ⟨originals, hsublist.cons record, hencoded⟩
    | lagged => exact ⟨originals, hsublist.cons record, hencoded⟩

/-- The records of the call that has not returned. -/
def Subscriber.heldRecords (s : Subscriber numbers) : List (Wire numbers.Float) :=
  (s.reading.map Reading.records).getD []

def Subscriber.heldDropped (s : Subscriber numbers) : Nat :=
  (s.reading.map Reading.dropped).getD 0

theorem Ledger.held (h : Ledger returned s past now) : Tells s.heldRecords s.heldDropped now := by
  unfold Subscriber.heldRecords Subscriber.heldDropped
  cases hreading : s.reading with
  | none =>
    rw [h.idle hreading]
    exact tells_nil
  | some reading => exact (h.reading reading hreading).tells

theorem records_returned (h : List.Forall₂ (fun batch fates => Tells batch.records batch.dropped
      fates ∧ batch.records.length ≤ batchItems) returned past) :
    returned.flatMap Batch.records = past.flatten.filterMap Fate.wire? := by
  induction h with
  | nil => rfl
  | cons hbatch _ ih =>
    rw [List.flatMap_cons, List.flatten_cons, List.filterMap_append, hbatch.1.records, ih]

/-- A count that fits a `u64` is reported as it is. -/
theorem count_returned (h : List.Forall₂ (fun batch fates => Tells batch.records batch.dropped
      fates ∧ batch.records.length ≤ batchItems) returned past)
    (hfits : past.flatten.length ≤ maxU64) :
    (returned.flatMap Batch.records).length + (returned.map Batch.dropped).sum =
      past.flatten.length := by
  induction h with
  | nil => rfl
  | @cons batch fates _ _ hbatch _ ih =>
    rw [List.flatten_cons, List.length_append] at hfits
    have hlength := Fate.length_eq fates
    have hrest := ih (by omega)
    rw [← hbatch.1.records] at hlength
    rw [List.flatMap_cons, List.length_append, List.map_cons, List.sum_cons, List.flatten_cons,
      List.length_append, hbatch.1.dropped]
    omega

/-! ## The client accepts every batch -/

theorem encodeValue_of_encoded? {record : Record} {wire : Wire numbers.Float}
    (h : encoded? numbers record = some wire) :
    encodeValue numbers record.value maxEvent = .ok wire := by
  unfold encoded? at h
  cases hresult : encodeValue numbers record.value maxEvent with
  | error error =>
    rw [hresult] at h
    cases h
  | ok found =>
    rw [hresult] at h
    cases h
    rfl

/-- Encoded records are read from any budget with space for as many events. -/
theorem readItems_encoded (hnumbers : numbers.Lawful) {originals : List Record}
    {wires : List (Wire numbers.Float)}
    (h : List.Forall₂ (fun record wire => encoded? numbers record = some wire) originals wires)
    {budget : Nat} (hbudget : maxEvent * wires.length ≤ budget) :
    ∃ values rest, readItems numbers wires budget 0 = .ok (values, rest) ∧
      List.Forall₂ Json.Same (originals.map Record.value) values := by
  induction h generalizing budget with
  | nil => exact ⟨[], budget, rfl, .nil⟩
  | @cons record wire _ wires hencoded _ ih =>
    have hok := encodeValue_of_encoded? hencoded
    obtain ⟨left, value, hsame, hbytes, hread⟩ := reads_encoded hnumbers record.valid hok
    rw [List.length_cons, Nat.mul_succ] at hbudget
    have hspace : maxEvent * wires.length ≤ left + (budget - maxEvent) := by omega
    obtain ⟨values, rest, hitems, hsames⟩ := ih hspace
    have hfirst := hread (budget - maxEvent)
    rw [Nat.add_sub_cancel' (by omega)] at hfirst
    refine ⟨value :: values, rest, ?_, .cons hsame hsames⟩
    simp [readItems, hfirst, hitems]

theorem bytesValues_le (hnumbers : numbers.Lawful) {originals : List Record}
    {wires : List (Wire numbers.Float)}
    (h : List.Forall₂ (fun record wire => encoded? numbers record = some wire) originals wires) :
    Wire.bytesValues wires ≤ maxEvent * wires.length := by
  induction h with
  | nil => exact Nat.zero_le _
  | @cons record wire _ wires hencoded _ ih =>
    have hok := encodeValue_of_encoded? hencoded
    have hle := bytes_encoded_le hnumbers record.valid hok
    rw [Wire.bytesValues, List.length_cons, Nat.mul_succ]
    omega

/-- The client returns a batch of the server with all its records. -/
structure Accepted (batch : Batch numbers) (originals : List Record) : Prop where
  encoded : List.Forall₂ (fun record wire => encoded? numbers record = some wire) originals
    batch.records
  read : ∃ values, List.Forall₂ Json.Same (originals.map Record.value) values ∧
    readBatch numbers batch =
      .ok { records := values, dropped := batch.dropped, closed := batch.closed }

theorem accepted_of_encoded (hnumbers : numbers.Lawful) {batch : Batch numbers}
    {originals : List Record}
    (h : List.Forall₂ (fun record wire => encoded? numbers record = some wire) originals
      batch.records) (hlength : batch.records.length ≤ batchItems) : Accepted batch originals := by
  rw [batchItems_eq] at hlength
  have hmessage : maxMessage = 1048576 := rfl
  have hevent : maxEvent = 65536 := rfl
  have hbytes := bytesValues_le hnumbers h
  have hrecords : maxEvent * batch.records.length ≤ 983040 := by
    rw [hevent]
    omega
  have hsize : checkSize batch.bytes maxMessage = .ok () := by
    rw [checkSize, ensure_eq_ok, Batch.bytes]
    exact Nat.div_le_div_right (by omega)
  have hlist : Budget.list maxMessage batch.records.length 24 = .ok (maxMessage - 8) := by
    rw [Budget.list, if_neg (by omega), Budget.take, if_pos (by omega)]
  have hspace : maxEvent * batch.records.length ≤ maxMessage - 8 := by omega
  obtain ⟨values, rest, hitems, hsame⟩ := readItems_encoded hnumbers h hspace
  refine ⟨h, values, hsame, ?_⟩
  simp [readBatch, hsize, decodeValues, readList, hlist, hitems]

/-! ## Main results -/

/-- The channel counts what it was sent in a `u64`, so that it reports a lag
as long as the count does not wrap. -/
def Subscriber.ReportsLag (s : Subscriber numbers) : Prop := s.published.length ≤ maxU64

/-- The account of a subscription that returned these batches. -/
structure Accounted (returned : List (Batch numbers)) (s : Subscriber numbers) : Prop where
  /-- Each record that the receiver has passed has one fate, in one batch. -/
  ledger : ∃ past now, Ledger returned s past now
  delivered : ∃ originals : List Record, originals.Sublist (s.published.take s.position) ∧
    List.Forall₂ (fun record wire => encoded? numbers record = some wire) originals
      (returned.flatMap Batch.records ++ s.heldRecords)
  counted : s.ReportsLag →
    (returned.flatMap Batch.records).length + (returned.map Batch.dropped).sum +
      (s.heldRecords.length + s.heldDropped) = s.position
  accepted : ∀ batch ∈ returned, ∃ originals : List Record,
    originals.Sublist s.published ∧ Accepted batch originals

theorem accounted_of_run (hnumbers : numbers.Lawful) {events : List (Event numbers)}
    {s : Subscriber numbers} (h : Run (Step numbers) {} events s) :
    Accounted (batches events) s := by
  obtain ⟨past, now, hledger⟩ := exists_ledger h
  have hheld := hledger.held
  have hreturned := records_returned hledger.returned
  have hposition := hledger.fits.length_eq
  rw [List.length_append, List.length_take, Nat.min_eq_left hledger.position] at hposition
  refine ⟨⟨past, now, hledger⟩, ?_, fun hlag => ?_, fun batch hbatch => ?_⟩
  · rw [hreturned, hheld.records, ← List.filterMap_append]
    exact exists_originals hledger.fits
  · have hle := hledger.position
    have hlag : s.published.length ≤ maxU64 := hlag
    have hpast := count_returned hledger.returned (by omega)
    have hnow := Fate.length_eq now
    rw [← hheld.records] at hnow
    rw [hheld.dropped]
    omega
  · obtain ⟨fates, hfates, htells, hlength⟩ := exists_mem_right hledger.returned hbatch
    -- the fates of the batch are a part of the ledger
    obtain ⟨earlier, later, hpast⟩ := List.append_of_mem hfates
    have hfits := hledger.fits
    rw [hpast, List.flatten_append, List.flatten_cons, List.append_assoc, List.append_assoc] at hfits
    obtain ⟨records, hwhole, hrest⟩ : ∃ records, List.Forall₂ Fate.Fits fates records ∧
        records.Sublist s.published := by
      have hpart := List.forall₂_take fates.length (List.forall₂_drop earlier.flatten.length hfits)
      rw [List.drop_left, List.take_left] at hpart
      exact ⟨_, hpart, ((List.take_sublist _ _).trans (List.drop_sublist _ _)).trans
        (List.take_sublist _ _)⟩
    obtain ⟨originals, hsublist, hencoded⟩ := exists_originals hwhole
    rw [← htells.records] at hencoded
    exact ⟨originals, hsublist.trans hrest, accepted_of_encoded hnumbers hencoded hlength⟩

end Accounting

/-- Records that are published one after the other. -/
theorem run_publish {numbers : Numbers} {s : Subscriber numbers} (h : s.ended = false)
    (records : List Record) :
    Run (Step numbers) s (List.replicate records.length .internal)
      { s with published := s.published ++ records } := by
  induction records using List.reverseRecOn with
  | nil =>
    rw [List.append_nil]
    exact .nil
  | append_singleton records record ih =>
    have hpublish := ih.snoc (.publish _ record h)
    rw [List.append_assoc] at hpublish
    rw [List.length_append, List.length_singleton, List.replicate_succ']
    exact hpublish

def savedRecord : Record := ⟨.string "saved", trivial⟩

/-- A record whose text alone is as long as an event may be. -/
def oversizedRecord : Record := ⟨.string (String.ofList (List.replicate maxEvent 'a')), trivial⟩

theorem encoded?_oversized : encoded? plainNumbers oversizedRecord = none := by
  have hbytes : ∀ n, (String.ofList (List.replicate n 'a')).utf8ByteSize = n := by
    intro n
    rw [String.utf8ByteSize_ofList]
    induction n with
    | zero => rfl
    | succ n ih =>
      rw [List.replicate_succ, String.utf8Len_cons, ih]
      rfl
  have hsize : Wire.textBytes (String.ofList (List.replicate maxEvent 'a')) = maxEvent + 8 := by
    rw [Wire.textBytes, hbytes]
    decide
  have hdepth : checkDepth 0 = .ok () := rfl
  have htake : Budget.take maxEvent 24 = .ok (maxEvent - 24) := rfl
  have hfull : ∀ value, Wire.textBytes value = maxEvent + 8 →
      Budget.text (maxEvent - 24) value = fail (overflow "RPC value exceeds its size limit") :=
    fun value hvalue => if_neg (by rw [hvalue]; decide)
  unfold encoded? encodeValue oversizedRecord
  rw [writeValue, hdepth, ok_bind, htake, ok_bind]
  simp only [hfull _ hsize]
  rfl

/-- A receiver that is three records behind what the stream keeps, and then
comes upon a record that was too large. -/
theorem accounted_of_lagged : ∃ (events : List (Event plainNumbers)) (s : Subscriber plainNumbers),
    Run (Step plainNumbers) {} events s ∧
      (batches events).map (fun batch => (batch.records.length, batch.dropped)) =
        [(1, 4), (2, 0)] ∧
      Accounted (batches events) s := by
  obtain ⟨records, hlength, hthird, hother⟩ : ∃ records : List Record, records.length = 131 ∧
      records[3]? = some oversizedRecord ∧
      ∀ i, 4 ≤ i → i < 131 → records[i]? = some savedRecord := by
    refine ⟨List.replicate 3 savedRecord ++ oversizedRecord :: List.replicate 127 savedRecord,
      by simp, by simp, fun i hlow hhigh => ?_⟩
    rw [List.getElem?_append_right (by simp; omega), List.length_replicate,
      List.getElem?_cons, if_neg (by omega), List.getElem?_replicate, if_pos (by omega)]
  have hnext : ∀ (s : Subscriber plainNumbers) (record : Record), s.published = records →
      s.detached = false → 3 ≤ s.position → records[s.position]? = some record →
      s.receive = (.record (encoded? plainNumbers record), s.position + 1) := by
    intro s record hpublished hattached hposition hrecord
    rw [Subscriber.receive, hattached, hpublished, hlength, if_neg Bool.false_ne_true,
      if_neg (by unfold streamItems; omega)]
    simp only [hrecord]
  have hsaved : ∃ wire, encoded? plainNumbers savedRecord = some wire := ⟨_, rfl⟩
  obtain ⟨wire, hwire⟩ := hsaved
  let sent : Subscriber plainNumbers := { published := records }
  let first : Reading plainNumbers := { count := batchCount 3 }
  let second : Reading plainNumbers := { count := batchCount 2 }
  have hsent : Run (Step plainNumbers) {} (List.replicate records.length .internal) sent :=
    run_publish rfl records
  have hcall : Step plainNumbers sent .internal { sent with reading := some first } :=
    .call sent 3 (by decide) rfl rfl
  have hskip : Step plainNumbers { sent with reading := some first } .internal
      { sent with reading := some (first.skip 3), position := 3 } := by
    refine .skip _ first 3 3 rfl (by decide) (fun _ => rfl) ?_
    rw [Subscriber.receive, if_neg Bool.false_ne_true]
    simp only [sent, hlength]
    rfl
  -- the record that was too large
  have hlost := hnext { sent with reading := some (first.skip 3), position := 3 } _ rfl rfl
    (le_refl 3) hthird
  rw [encoded?_oversized] at hlost
  have hlose : Step plainNumbers { sent with reading := some (first.skip 3), position := 3 }
      .internal { sent with reading := some ((first.skip 3).accept none), position := 4 } :=
    .accept _ (first.skip 3) none 4 rfl (by decide) (fun _ => rfl) hlost
  -- the records after it
  have htake : ∀ (reading : Reading plainNumbers) (position : Nat), 4 ≤ position →
      position < 131 → reading.Going →
      Step plainNumbers { sent with reading := some reading, position := position } .internal
        { sent with reading := some (reading.accept (some wire)), position := position + 1 } := by
    intro reading position hlow hhigh hgoing
    have hkept := hnext { sent with reading := some reading, position := position } _ rfl rfl
      (Nat.le_of_succ_le hlow) (hother position hlow hhigh)
    rw [hwire] at hkept
    exact .accept _ reading (some wire) _ rfl hgoing (fun _ => rfl) hkept
  let full := ((first.skip 3).accept none).accept (some wire)
  have hfinish : Step plainNumbers { sent with reading := some full, position := 5 }
      (.returns (full.batch false)) { sent with reading := none, position := 5 } :=
    .finish _ full rfl fun hgoing => Nat.lt_irrefl 3 hgoing.1
  have hagain : Step plainNumbers { sent with reading := none, position := 5 } .internal
      { sent with reading := some second, position := 5 } :=
    .call _ 2 (by decide) rfl rfl
  let last := (second.accept (some wire)).accept (some wire)
  have hreturn : Step plainNumbers { sent with reading := some last, position := 7 }
      (.returns (last.batch false)) { sent with reading := none, position := 7 } :=
    .finish _ last rfl fun hgoing => Nat.lt_irrefl 2 hgoing.1
  have hfirst := (((hsent.snoc hcall).snoc hskip).snoc hlose).snoc
    (htake _ 4 (by decide) (by decide) (by decide))
  have hrun := ((((hfirst.snoc hfinish).snoc hagain).snoc
    (htake _ 5 (by decide) (by decide) (by decide))).snoc
    (htake _ 6 (by decide) (by decide) ⟨show 1 < 2 by decide, rfl⟩)).snoc hreturn
  refine ⟨_, _, hrun, ?_, accounted_of_run plainNumbers_lawful hrun⟩
  rw [hlength]
  rfl

end DstServer.Rpc
