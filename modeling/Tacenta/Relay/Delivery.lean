import Mathlib.Data.List.AList
import Tacenta.Library.Word64
import Tacenta.Wire.Envelope

/-!
# The relay's queues

Each device has a queue: a session, which is an append-only log with a cursor, and a base, which
counts the messages that were acknowledged and dropped. An acknowledgement is by absolute position
and compacts the queue. The relay adds budgets on the bytes that are pending in one queue, for one
user and in the whole relay.

Sizes and sums of sizes are naturals. The sums that the code lets saturate do so here, and the sum
that only the ceiling of the whole relay bounds, which may be the largest word, wraps; the budgets
keep the others far below the bounds of machine integers.

## Main definitions

* `Session`: an append-only log with a cursor that is not beyond its end.
* `Queue`: a compacting queue, with `enqueue`, `ack` and `fromParts`.
* `Relay`: the queues and the budgets, with `enqueue`, `pending`, `cursor` and `ack`.
-/

open ByteString Tacenta.Wire

namespace Tacenta

namespace Relay

/-! ### Sessions -/

/-- A log of messages and how many of them were acknowledged. -/
structure Session (α : Type) where
  /-- The messages. -/
  log : List α
  /-- The acknowledged ones. -/
  cursor : Nat
  cursor_le : cursor ≤ log.length
  deriving DecidableEq

namespace Session

variable {α : Type}

/-- Nothing was appended. -/
def new : Session α := ⟨[], 0, Nat.le_refl 0⟩

/-- The messages that were not acknowledged, oldest first. -/
def pending (s : Session α) : List α := s.log.drop s.cursor

/-- Append a message. -/
def append (s : Session α) (e : α) : Session α :=
  ⟨s.log ++ [e], s.cursor, by
    rw [List.length_append]
    exact Nat.le_add_right_of_le s.cursor_le⟩

/-- Acknowledge everything up to a position, which must advance and be within the log. -/
def ack (s : Session α) (n : Nat) : Session α × Bool :=
  if h : s.cursor < n ∧ n ≤ s.log.length then (⟨s.log, n, h.2⟩, true) else (s, false)

end Session

/-! ### Messages -/

/-- A routing address: a user and one of their devices. -/
structure DeviceAddr where
  user : String
  device : UInt32
  deriving DecidableEq

/-- A message with the authenticated device that sent it. -/
structure StoredMessage where
  /-- The sender. -/
  source : DeviceAddr
  envelope : Envelope
  deriving DecidableEq

/-- The bytes of a message that count against the budgets. -/
def StoredMessage.byteLen (m : StoredMessage) : Nat :=
  m.envelope.payload.length + (utf8Bytes m.source.user).length

/-- The bytes of some messages that count against the budgets. -/
def bytesOf (messages : List StoredMessage) : Nat := (messages.map StoredMessage.byteLen).sum

/-- The most pending messages of a queue. -/
def maxPending : Nat := 65536

/-- The largest message. -/
def maxEnvelopeBytes : Nat := 1048576

/-- The most pending bytes of a queue. -/
def maxQueueBytes : Nat := 67108864

/-- The most pending bytes of a user. -/
def maxUserBytes : Nat := 134217728

/-- The most pending bytes of the relay, unless configured otherwise. -/
def maxTotalBytesDefault : Nat := 4294967296

/-- Whether a message was queued. -/
inductive Enqueued where
  | ok
  | queueFull
  | tooLarge
  deriving DecidableEq

/-! ### Queues -/

/-- The queue of a device. -/
structure Queue where
  /-- How many messages were dropped after they were acknowledged. -/
  base : UInt64
  /-- The messages from the base on. -/
  inner : Session StoredMessage
  pendingBytes : Nat
  deriving DecidableEq

namespace Queue

/-- An empty queue. -/
def new : Queue := ⟨0, .new, 0⟩

/-- Queue a message that fits. -/
def enqueue (q : Queue) (message : StoredMessage) : Queue × Enqueued :=
  let size := message.byteLen
  if maxEnvelopeBytes < size then (q, .tooLarge)
  else if maxPending ≤ q.inner.pending.length ∨
      maxQueueBytes < Word64.saturate (q.pendingBytes + size)
  then (q, .queueFull)
  else ({ q with inner := q.inner.append message, pendingBytes := q.pendingBytes + size }, .ok)

/-- The messages that wait. -/
def pending (q : Queue) : List StoredMessage := q.inner.pending

/-- The absolute cursor. -/
def cursor (q : Queue) : UInt64 := q.base + q.inner.cursor.toUInt64

/-- Drop the acknowledged messages and count them in the base. -/
def compact (q : Queue) : Queue :=
  if q.inner.cursor = 0 then q
  else { q with
    inner := q.inner.pending.foldl Session.append .new
    base := q.base + q.inner.cursor.toUInt64 }

/-- Acknowledge everything up to an absolute position. -/
def ack (q : Queue) (upTo : UInt64) : Queue × Bool :=
  if upTo < q.base then (q, false)
  else
    let (inner, accepted) := q.inner.ack (upTo - q.base).toNat
    if accepted then
      let q := { q with inner }.compact
      ({ q with pendingBytes := bytesOf q.inner.pending }, true)
    else (q, false)

/-- Rebuild a queue from what a snapshot holds of it. -/
def fromParts (base : UInt64) (resident : List StoredMessage) (innerCursor : Nat) : Option Queue :=
  if resident.length < innerCursor then none
  else
    let inner := resident.foldl Session.append Session.new
    let (acked, accepted) := inner.ack innerCursor
    if 0 < innerCursor ∧ ¬accepted then none
    else
      let inner := if 0 < innerCursor then acked else inner
      some ⟨base, inner, bytesOf inner.pending⟩

end Queue

/-! ### The relay -/

end Relay

/-- The relay: a queue for each device that something was sent to, and the budgets. -/
structure Relay where
  queues : AList fun _ : Relay.DeviceAddr => Relay.Queue
  /-- The pending bytes of each user. -/
  userBytes : AList fun _ : String => Nat
  /-- The pending bytes of all. -/
  totalBytes : Nat
  /-- The most pending bytes of all. -/
  maxTotalBytes : Nat

namespace Relay

/-- A relay without queues and with the default budget. -/
def new : Relay := ⟨∅, ∅, 0, maxTotalBytesDefault⟩

/-- Queue an envelope of a device for a device; its queue is created on first use. -/
def enqueue (r : Relay) (recipient source : DeviceAddr) (envelope : Envelope) : Relay × Enqueued :=
  let message : StoredMessage := ⟨source, envelope⟩
  let size := message.byteLen
  if maxEnvelopeBytes < size then (r, .tooLarge)
  else if r.maxTotalBytes < Word64.saturate (r.totalBytes + size) then (r, .queueFull)
  else
    let userTotal := (r.userBytes.lookup recipient.user).getD 0
    if maxUserBytes < Word64.saturate (userTotal + size) then (r, .queueFull)
    else
      let (queue, result) := ((r.queues.lookup recipient).getD .new).enqueue message
      let r := { r with queues := r.queues.insert recipient queue }
      if result = .ok then
        ({ r with
          userBytes := r.userBytes.insert recipient.user (userTotal + size)
          totalBytes := (r.totalBytes + size) % 2 ^ 64 }, .ok)
      else (r, result)

/-- The messages that wait for a device, oldest first. -/
def pending (r : Relay) (device : DeviceAddr) : List StoredMessage :=
  ((r.queues.lookup device).map Queue.pending).getD []

/-- The absolute cursor of a device. -/
def cursor (r : Relay) (device : DeviceAddr) : UInt64 :=
  ((r.queues.lookup device).map Queue.cursor).getD 0

/-- A device acknowledges everything up to an absolute position. -/
def ack (r : Relay) (device : DeviceAddr) (upTo : UInt64) : Relay × Bool :=
  match r.queues.lookup device with
  | none => (r, false)
  | some queue =>
    let (acked, accepted) := queue.ack upTo
    if accepted then
      let freed := queue.pendingBytes - acked.pendingBytes
      let userBytes := match r.userBytes.lookup device.user with
        | some user => r.userBytes.insert device.user (user - freed)
        | none => r.userBytes
      ({ r with
        queues := r.queues.insert device acked
        userBytes
        totalBytes := r.totalBytes - freed }, true)
    else (r, false)

/-- Count the pending bytes anew. -/
def rebuildUserBytes (r : Relay) : Relay :=
  { r with
    userBytes := r.queues.entries.foldl (fun totals entry => totals.insert entry.1.user
      ((totals.lookup entry.1.user).getD 0 + entry.2.pendingBytes)) ∅
    totalBytes := (r.queues.entries.map fun entry => entry.2.pendingBytes).sum }

end Relay

end Tacenta
