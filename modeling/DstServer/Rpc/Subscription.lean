import DstServer.Rpc.RoundTrip
import DstServer.Lib.Run

/-!
# Subscriptions

One subscription to a stream of records.  The stream is a broadcast channel
with a bounded memory: a receiver that is too far behind is told how many
records it lost and goes on with the oldest one that is kept.  A record that
is too large to be sent takes an empty slot.

A call of `next` waits for one item and then takes what there is, up to the
items of a batch.  Publications come at any time, also between two items of
a call.
-/

namespace DstServer.Rpc

open Lib Outcome

/-! ## The stream -/

def maxEvent : Nat := 64 * 1024

/-- The records that a stream keeps. -/
def streamItems : Nat := 128

/-- A record as it is published. -/
structure Record where
  value : Json
  valid : value.Valid

section Subscription

variable (numbers : Numbers)

/-- What `publish` sends: nothing for a record that is too large. -/
def encoded? (record : Record) : Option (Wire numbers.Float) :=
  (encodeValue numbers record.value maxEvent).toOption

/-- What a receiver is given. -/
inductive Received where
  | record (event : Option (Wire numbers.Float))
  | lagged (skipped : Nat)
  | closed
  | empty

/-- A batch on the wire. -/
structure Batch where
  records : List (Wire numbers.Float)
  dropped : Nat
  closed : Bool

/-- A call of `next` that has not returned. -/
structure Reading where
  count : Nat
  /-- The number of items taken. -/
  index : Nat := 0
  records : List (Wire numbers.Float) := []
  dropped : Nat := 0
  /-- The receiver had nothing more. -/
  drained : Bool := false

structure Subscriber where
  /-- What was sent to the stream since the subscription began. -/
  published : List Record := []
  /-- The senders of the stream are gone. -/
  ended : Bool := false
  /-- The position of the receiver in the stream. -/
  position : Nat := 0
  /-- The receiver was replaced by one of a closed channel. -/
  detached : Bool := false
  closed : Bool := false
  reading : Option (Reading numbers) := none

/-- The receiver's next item, and its position after it. -/
def Subscriber.receive (s : Subscriber numbers) : Received numbers × Nat :=
  if s.detached then (.closed, s.position)
  else if s.position + streamItems < s.published.length then
    (.lagged (s.published.length - streamItems - s.position), s.published.length - streamItems)
  else match s.published[s.position]? with
    | some record => (.record (encoded? numbers record), s.position + 1)
    | none => (if s.ended then .closed else .empty, s.position)

/-! ## Calls -/

/-- The largest `u64`. -/
def maxU64 : Nat := 2 ^ 64 - 1

def saturatingAdd (a b : Nat) : Nat := min (a + b) maxU64

/-- The items of a batch: there is space for the batch and its list as well. -/
def batchCount (maxItems : Nat) : Nat := min maxItems ((maxMessage - 32) / maxEvent)

namespace Reading

variable {numbers}

/-- The call after it took an item. -/
def accept (reading : Reading numbers) (event : Option (Wire numbers.Float)) : Reading numbers :=
  match event with
  | some record => { reading with index := reading.index + 1, records := reading.records ++ [record] }
  | none => { reading with
      index := reading.index + 1
      dropped := saturatingAdd reading.dropped 1 }

def skip (reading : Reading numbers) (skipped : Nat) : Reading numbers :=
  { reading with
    index := reading.index + 1
    dropped := saturatingAdd reading.dropped skipped }

/-- The call takes another item. -/
def Going (reading : Reading numbers) : Prop :=
  reading.index < reading.count ∧ reading.drained = false

instance (reading : Reading numbers) : Decidable reading.Going :=
  inferInstanceAs (Decidable (_ ∧ _))

def batch (reading : Reading numbers) (closed : Bool) : Batch numbers :=
  { records := reading.records, dropped := reading.dropped, closed := closed }

end Reading

/-- A batch with no records, as a closed subscription returns it. -/
def closedBatch : Batch numbers := { records := [], dropped := 0, closed := true }

/-- The batch that a step returns, if it does. -/
inductive Event where
  | returns (batch : Batch numbers)
  | internal

inductive Step : Subscriber numbers → Event numbers → Subscriber numbers → Prop
  -- the stream
  | publish (s : Subscriber numbers) (record : Record) (hended : s.ended = false) :
      Step s .internal { s with published := s.published ++ [record] }
  | endStream (s : Subscriber numbers) : Step s .internal { s with ended := true }
  -- `next`
  | callClosed (s : Subscriber numbers) (hidle : s.reading = none) (hclosed : s.closed = true) :
      Step s (.returns (closedBatch numbers)) s
  | call (s : Subscriber numbers) (maxItems : Nat) (hitems : 1 ≤ maxItems ∧ maxItems ≤ 512)
      (hidle : s.reading = none) (hclosed : s.closed = false) :
      Step s .internal { s with reading := some { count := batchCount maxItems } }
  -- the first item is waited for, and the close of the subscription ends the wait
  | interrupt (s : Subscriber numbers) (reading : Reading numbers) (hreading : s.reading = some reading)
      (hfirst : reading.index = 0) (hclosed : s.closed = true) :
      Step s (.returns (reading.batch true)) { s with reading := none }
  | cancel (s : Subscriber numbers) (reading : Reading numbers) (hreading : s.reading = some reading)
      (hfirst : reading.index = 0) :
      Step s .internal { s with reading := none }
  | accept (s : Subscriber numbers) (reading : Reading numbers) (event : Option (Wire numbers.Float))
      (position : Nat) (hreading : s.reading = some reading) (hgoing : reading.Going)
      (hclosed : reading.index = 0 → s.closed = false)
      (hreceive : s.receive = (.record event, position)) :
      Step s .internal { s with reading := some (reading.accept event), position := position }
  | skip (s : Subscriber numbers) (reading : Reading numbers) (skipped position : Nat)
      (hreading : s.reading = some reading) (hgoing : reading.Going)
      (hclosed : reading.index = 0 → s.closed = false)
      (hreceive : s.receive = (.lagged skipped, position)) :
      Step s .internal { s with reading := some (reading.skip skipped), position := position }
  | finishClosed (s : Subscriber numbers) (reading : Reading numbers)
      (hreading : s.reading = some reading) (hgoing : reading.Going)
      (hreceive : s.receive = (.closed, s.position)) :
      Step s (.returns (reading.batch true)) { s with reading := none }
  | drain (s : Subscriber numbers) (reading : Reading numbers) (hreading : s.reading = some reading)
      (hgoing : reading.Going) (hstarted : 0 < reading.index)
      (hreceive : s.receive = (.empty, s.position)) :
      Step s .internal { s with reading := some { reading with drained := true } }
  | finish (s : Subscriber numbers) (reading : Reading numbers) (hreading : s.reading = some reading)
      (hdone : ¬reading.Going) :
      Step s (.returns (reading.batch
          (s.detached || (s.ended && decide (s.position = s.published.length)))))
        { s with reading := none }
  -- `close`
  | close (s : Subscriber numbers) : Step s .internal { s with closed := true }
  | detach (s : Subscriber numbers) (hclosed : s.closed = true) (hidle : s.reading = none) :
      Step s .internal { s with detached := true }

/-! ## The client -/

namespace Batch

variable {numbers}

/-- The size of a batch: its struct, the tag of its list and the records. -/
def bytes (batch : Batch numbers) : Nat := 24 + (8 + Wire.bytesValues batch.records)

end Batch

/-- A batch as the client returns it. -/
structure ClientBatch where
  records : List Json
  dropped : Nat
  closed : Bool

def transport (error : Error) : Error := { code := .transport, message := error.message }

/-- The client's check of a batch. -/
def readBatch (batch : Batch numbers) : Outcome Error ClientBatch := do
  checkSize batch.bytes maxMessage
  let records ← match decodeValues numbers batch.records with
    | .ok records => pure records
    | .error (.error error) => fail (transport error)
    | .error (.panic message) => panics message
  pure { records := records, dropped := batch.dropped, closed := batch.closed }

end Subscription

end DstServer.Rpc
