import Mathlib.Data.List.Sort
import Tacenta.Relay.Delivery

/-!
# The relay's protocol and snapshots

What a client can ask of the relay, the byte formats of requests, responses and snapshots, and the
relay's answer to a request of an authenticated device. The encoders panic where a length does not
fit its four bytes, which is modelled as an error; the decoders accept or refuse.

## Main definitions

* `Request`, `Response`, `handle`: the operations; `Handled`: what they can do.
* `encodeRequest`, `decodeRequest`, `encodeResponse`, `decodeResponse`: their byte formats.
* `encodeAuth`, `decodeAuth`: the byte format of an authentication.
* `snapshot`, `restore`: the relay as bytes, also from the format that was used before queues were
  compacted.
-/

open ByteString Result Tacenta.Wire

namespace Tacenta

namespace Relay

/-! ### Requests and responses -/

/-- What a client asks. -/
inductive Request where
  | send (recipient : DeviceAddr) (envelope : Envelope)
  | poll (device : DeviceAddr)
  | ack (device : DeviceAddr) (upTo : UInt64)
  | delivered (devices : List DeviceAddr)
  deriving DecidableEq

/-- What the relay answers. -/
inductive Response where
  | ok
  | delivered (start : UInt64) (messages : List StoredMessage)
  | acked (accepted : Bool)
  | deliveredCount (count : UInt64)
  | unauthorized
  | unknownRecipient
  | queueFull
  | tooLarge
  deriving DecidableEq

/-- The answer to a send. -/
def Enqueued.response : Enqueued → Response
  | .ok => .ok
  | .queueFull => .queueFull
  | .tooLarge => .tooLarge

/-- Answer a request of an authenticated device. -/
def handle (r : Relay) (authorized : DeviceAddr) : Request → Relay × Response
  | .send recipient envelope =>
    let (r, result) := r.enqueue recipient authorized envelope
    (r, result.response)
  | .poll device =>
    if device = authorized then (r, .delivered (r.cursor device) (r.pending device))
    else (r, .unauthorized)
  | .ack device upTo =>
    if device = authorized then
      let (r, accepted) := r.ack device upTo
      (r, .acked accepted)
    else (r, .unauthorized)
  | .delivered devices =>
    if devices.all fun d => d.user = authorized.user then
      (r, .deliveredCount ((devices.map r.cursor).min?.getD 0))
    else (r, .unauthorized)

/-- What a request can do: an enqueue, an acknowledgement by the device itself, or nothing. -/
inductive Handled (r : Relay) (authorized : DeviceAddr) : Request → Relay × Response → Prop
  | sent (recipient : DeviceAddr) (envelope : Envelope) :
    Handled r authorized (.send recipient envelope)
      ((r.enqueue recipient authorized envelope).1,
        (r.enqueue recipient authorized envelope).2.response)
  | acked (upTo : UInt64) :
    Handled r authorized (.ack authorized upTo)
      ((r.ack authorized upTo).1, .acked (r.ack authorized upTo).2)
  | answered {request : Request} {response : Response}
    (hsend : ∀ recipient envelope, request ≠ .send recipient envelope)
    (hack : ∀ accepted, response ≠ .acked accepted) : Handled r authorized request (r, response)

theorem handle_handled (r : Relay) (authorized : DeviceAddr) (request : Request) :
    Handled r authorized request (r.handle authorized request) := by
  cases request with
  | send recipient envelope => exact .sent recipient envelope
  | poll device =>
    rw [handle]
    split <;> exact .answered (fun _ _ h => by cases h) fun _ h => by cases h
  | ack device upTo =>
    rw [handle]
    split
    · next hdevice =>
      subst hdevice
      exact .acked upTo
    · exact .answered (fun _ _ h => by cases h) fun _ h => by cases h
  | delivered devices =>
    rw [handle]
    split <;> exact .answered (fun _ _ h => by cases h) fun _ h => by cases h

/-! ### Writing -/

/-- The expectations of the encoders. -/
inductive Panic where
  | deviceCount
  | messageCount
  | block
  | envelope
  deriving DecidableEq

/-- Append a block after its length in four bytes. -/
def putBytes (out bytes : Bytes) : Except Panic Bytes := do
  refuseIf (2 ^ 32 ≤ bytes.length) .block
  pure (out ++ u32Bytes bytes.length.toUInt32 ++ bytes)

/-- Append an address. -/
def putAddr (out : Bytes) (addr : DeviceAddr) : Except Panic Bytes := do
  let out ← putBytes out (utf8Bytes addr.user)
  pure (out ++ u32Bytes addr.device)

/-- Append an envelope as a block. -/
def putEnvelope (out : Bytes) (envelope : Envelope) : Except Panic Bytes :=
  match encode envelope with
  | none => .error .envelope
  | some bytes => putBytes out bytes

/-- Append a message with its sender. -/
def putMessage (out : Bytes) (m : StoredMessage) : Except Panic Bytes := do
  let out ← putAddr out m.source
  putEnvelope out m.envelope

/-- Append messages after their number. -/
def putMessages (out : Bytes) (messages : List StoredMessage) : Except Panic Bytes := do
  refuseIf (2 ^ 32 ≤ messages.length) .messageCount
  messages.foldlM putMessage (out ++ u32Bytes messages.length.toUInt32)

def encodeRequest : Request → Except Panic Bytes
  | .send recipient envelope => do
    let out ← putAddr [1] recipient
    putEnvelope out envelope
  | .poll device => putAddr [2] device
  | .ack device upTo => do
    let out ← putAddr [3] device
    pure (out ++ u64Bytes upTo)
  | .delivered devices => do
    refuseIf (2 ^ 32 ≤ devices.length) .deviceCount
    devices.foldlM putAddr ([4] ++ u32Bytes devices.length.toUInt32)

def encodeResponse : Response → Except Panic Bytes
  | .ok => pure [1]
  | .delivered start messages => putMessages ([2] ++ u64Bytes start) messages
  | .acked accepted => pure [3, accepted.toUInt8]
  | .unauthorized => pure [4]
  | .deliveredCount count => pure ([5] ++ u64Bytes count)
  | .unknownRecipient => pure [6]
  | .queueFull => pure [7]
  | .tooLarge => pure [8]

/-! ### Reading -/

/-- Take an address. -/
def takeAddr : Reader Unit DeviceAddr := do
  let userBytes ← Reader.takeLp ()
  let user ← orRefuse (ofUtf8? userBytes) ()
  let device ← Reader.takeU32 ()
  pure ⟨user, device⟩

/-- Take an envelope from a block. -/
def takeEnvelope : Reader Unit Envelope := do
  let bytes ← Reader.takeLp ()
  orRefuse (decode bytes) ()

/-- Take a message with its sender. -/
def takeMessage : Reader Unit StoredMessage := do
  let source ← takeAddr
  let envelope ← takeEnvelope
  pure ⟨source, envelope⟩

/-- Take messages after their number. -/
def takeMessages : Reader Unit (List StoredMessage) := do
  let count ← Reader.takeU32 ()
  Reader.many takeMessage count.toNat

/-- The reader of `decodeRequest`. -/
def readRequest : Reader Unit Request := do
  match ← Reader.takeByte () with
  | 1 =>
    let recipient ← takeAddr
    let bytes ← Reader.takeLp ()
    Reader.finish ()
    let envelope ← orRefuse (decode bytes) ()
    pure (.send recipient envelope)
  | 2 =>
    let device ← takeAddr
    Reader.finish ()
    pure (.poll device)
  | 3 =>
    let device ← takeAddr
    let upTo ← Reader.takeU64 ()
    Reader.finish ()
    pure (.ack device upTo)
  | 4 =>
    let count ← Reader.takeU32 ()
    let devices ← Reader.many takeAddr count.toNat
    Reader.finish ()
    pure (.delivered devices)
  | _ => throw ()

def decodeRequest (bytes : Bytes) : Option Request := (readRequest.run' bytes).toOption

/-- Take whether an acknowledgement was accepted. -/
def takeAccepted : Reader Unit Bool := do
  match ← Reader.takeByte () with
  | 0 => pure false
  | 1 => pure true
  | _ => throw ()

/-- Take the response that a tag names. -/
def takeResponse (tag : UInt8) : Reader Unit Response :=
  match tag with
  | 1 => pure .ok
  | 2 => do
    let start ← Reader.takeU64 ()
    let messages ← takeMessages
    pure (.delivered start messages)
  | 3 => do
    let accepted ← takeAccepted
    pure (.acked accepted)
  | 4 => pure .unauthorized
  | 5 => do
    let count ← Reader.takeU64 ()
    pure (.deliveredCount count)
  | 6 => pure .unknownRecipient
  | 7 => pure .queueFull
  | 8 => pure .tooLarge
  | _ => throw ()

/-- The reader of `decodeResponse`. -/
def readResponse : Reader Unit Response := do
  let tag ← Reader.takeByte ()
  let response ← takeResponse tag
  Reader.finish ()
  pure response

def decodeResponse (bytes : Bytes) : Option Response := (readResponse.run' bytes).toOption

/-! ### Authentication -/

/-- The bytes of an authentication: a device and its signature of the challenge. -/
def encodeAuth (device : DeviceAddr) (signature : Bytes) : Except Panic Bytes := do
  let out ← putAddr [] device
  putBytes out signature

/-- The reader of `decodeAuth`. -/
def readAuth : Reader Unit (DeviceAddr × Bytes) := do
  let device ← takeAddr
  let signature ← Reader.takeLp ()
  Reader.finish ()
  pure (device, signature)

/-- Decode an authentication. -/
def decodeAuth (bytes : Bytes) : Option (DeviceAddr × Bytes) := (readAuth.run' bytes).toOption

/-! ### Snapshots -/

/-- The first byte of a snapshot of compacted queues. -/
def snapshotMarker : UInt8 := 0x5a

/-- The version of the snapshots of compacted queues. -/
def snapshotVersion2 : UInt8 := 0x02

/-- The order of devices in a snapshot. -/
def DeviceAddr.cmp (a b : DeviceAddr) : Ordering :=
  (compare (utf8Bytes a.user) (utf8Bytes b.user)).then (compare a.device b.device)

/-- Append the queue of a device. -/
def putQueue (out : Bytes) (entry : (_ : DeviceAddr) × Queue) : Except Panic Bytes := do
  let out ← putAddr out entry.1
  let out := out ++ u64Bytes entry.2.base ++ u64Bytes entry.2.inner.cursor.toUInt64
  let log ← putMessages [] entry.2.inner.log
  putBytes out log

/-- The relay's queues as bytes, in the order of the devices. -/
def snapshot (r : Relay) : Except Panic Bytes := do
  let entries := r.queues.entries.insertionSort fun a b => (a.1.cmp b.1).isLE
  refuseIf (2 ^ 32 ≤ entries.length) .deviceCount
  entries.foldlM putQueue ([snapshotMarker, snapshotVersion2] ++ u32Bytes entries.length.toUInt32)

/-- Take the messages of a log, which fill a block. -/
def takeLog : Reader Unit (List StoredMessage) := do
  let bytes ← Reader.takeLp ()
  let log ← (do
    let log ← takeMessages
    Reader.finish ()
    pure log : Reader Unit (List StoredMessage)).run' bytes
  pure log

/-- Take a queue and insert it. -/
def takeQueue (queues : AList fun _ : DeviceAddr => Queue) :
    Reader Unit (AList fun _ : DeviceAddr => Queue) := do
  let device ← takeAddr
  let base ← Reader.takeU64 ()
  let innerCursor ← Reader.takeU64 ()
  let resident ← takeLog
  let queue ← orRefuse (Queue.fromParts base resident innerCursor.toNat) ()
  pure (queues.insert device queue)

/-- Take a queue that was not compacted and insert it. -/
def takeLegacyQueue (queues : AList fun _ : DeviceAddr => Queue) :
    Reader Unit (AList fun _ : DeviceAddr => Queue) := do
  let device ← takeAddr
  let cursor ← Reader.takeU64 ()
  let log ← takeLog
  let queue ← orRefuse (Queue.fromParts 0 log cursor.toNat) ()
  pure (queues.insert device queue)

/-- Restore a relay from its queues, read one after the other. -/
def readQueues (takeOne : (AList fun _ : DeviceAddr => Queue) →
    Reader Unit (AList fun _ : DeviceAddr => Queue)) : Reader Unit Relay := do
  let count ← Reader.takeU32 ()
  let queues ← Reader.loop takeOne count.toNat ∅
  Reader.finish ()
  pure { Relay.new with queues }.rebuildUserBytes

/-- Restore a snapshot of compacted queues. -/
def restoreV2 (bytes : Bytes) : Option Relay := ((readQueues takeQueue).run' bytes).toOption

/-- Restore a snapshot of queues that were not compacted. -/
def restoreLegacy (bytes : Bytes) : Option Relay :=
  ((readQueues takeLegacyQueue).run' bytes).toOption

/-- Restore a snapshot. -/
def restore (bytes : Bytes) : Option Relay :=
  match bytes with
  | [] => restoreLegacy []
  | first :: rest =>
    if first = snapshotMarker then
      match rest with
      | [] => none
      | version :: rest => if version ≠ snapshotVersion2 then none else restoreV2 rest
    else restoreLegacy (first :: rest)

end Relay

end Tacenta
