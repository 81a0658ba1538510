import Tacenta.Group.Payload
import Tacenta.Library.Word64

/-!
# The outbox of control handoffs

The exact ciphertexts of roster and invitation controls, one for each recipient and payload, with
the attempts that were reserved for them. At most eight handoffs are live; the oldest terminal ones
beyond sixteen are dropped. The commitment of a payload is a parameter.

## Main definitions

* `Handoff`, `Disposition`: a handoff and where it stands.
* `ControlOutbox`, with `recordPrepared`, `reserve`, `accept`, `cancelNonRevocationForRecipient` and
  the checkpoint `encodeState`, `decodeState`.
-/

open ByteString Records Result Tacenta.Group

namespace Tacenta.Client

/-- Domain of a control outbox's checkpoint. -/
def controlOutboxDomain : Bytes := ascii "Tacenta Group Control Outbox State v2"

/-- Largest number of live handoffs. -/
def maxLiveHandoffs : Nat := 8

/-- Largest number of terminal handoffs that are kept. -/
def maxTerminalHandoffs : Nat := 16

/-- The attempt that is final. -/
def maxAttempts : UInt8 := 3

/-- Where a handoff stands. -/
inductive Disposition where
  | prepared
  | handedOff
  | relayAccepted
  | exhaustedUnknown
  | cancelled
  | cancelledAfterHandoff
  deriving DecidableEq

namespace Disposition

/-- A terminal handoff is never sent again. -/
def isTerminal : Disposition → Bool
  | .prepared | .handedOff => false
  | _ => true

/-- The byte of a disposition. -/
def code : Disposition → UInt8
  | .prepared => 0
  | .handedOff => 1
  | .relayAccepted => 2
  | .exhaustedUnknown => 3
  | .cancelled => 4
  | .cancelledAfterHandoff => 5

/-- The disposition of a byte. -/
def ofCode : UInt8 → Option Disposition
  | 0 => some .prepared
  | 1 => some .handedOff
  | 2 => some .relayAccepted
  | 3 => some .exhaustedUnknown
  | 4 => some .cancelled
  | 5 => some .cancelledAfterHandoff
  | _ => none

end Disposition

/-- The exact ciphertext of a control for one recipient. -/
structure Handoff where
  recipient : Member
  /-- The payload's bytes. -/
  payload : Bytes
  ciphertext : Bytes
  /-- The attempts reserved so far. -/
  attemptsReserved : UInt8
  /-- Where the handoff stands. -/
  disposition : Disposition
  /-- The order of allocation. -/
  sequence : UInt64
  deriving DecidableEq

namespace Handoff

/-- The canonical order: by the payload's commitment, then by recipient. -/
def canonicalOrder (payloadCommitment : Bytes → Digest) (a b : Handoff) : Ordering :=
  (compare (payloadCommitment a.payload).val (payloadCommitment b.payload).val).then
    ((compare a.recipient.identity b.recipient.identity).then
      (compare a.recipient.device b.recipient.device))

/-- Whether the handoff is the one of a recipient and payload. -/
def isFor (payloadCommitment : Bytes → Digest) (recipient : Member) (payload : Bytes)
    (h : Handoff) : Bool :=
  h.recipient = recipient ∧ payloadCommitment h.payload = payloadCommitment payload

/-- Whether the bytes are a control payload. -/
def isControlPayload (payload : Bytes) : Bool :=
  (GroupPayload.decode payload).toOption.any GroupPayload.isControl

end Handoff

/-- The control handoffs of one group. -/
structure ControlOutbox where
  /-- The handoffs, in canonical order. -/
  handoffs : List Handoff
  deriving DecidableEq

namespace ControlOutbox

def empty : ControlOutbox := ⟨[]⟩

/-- The number of live handoffs. -/
def live (o : ControlOutbox) : Nat := o.handoffs.countP fun h => !h.disposition.isTerminal

/-- The number of terminal handoffs. -/
def terminal (handoffs : List Handoff) : Nat := handoffs.countP fun h => h.disposition.isTerminal

/-- Drop the first of the oldest terminal handoffs. -/
def dropOldestTerminal (handoffs : List Handoff) : List Handoff :=
  match ((handoffs.filter fun h => h.disposition.isTerminal).map Handoff.sequence).min? with
  | some oldest => handoffs.eraseP fun h => h.disposition.isTerminal && h.sequence = oldest
  | none => handoffs

/-- Drop the oldest terminal handoffs beyond the bound, one after the other. -/
def reclaim (handoffs : List Handoff) : ControlOutbox :=
  ⟨dropOldestTerminal^[terminal handoffs - maxTerminalHandoffs] handoffs⟩

/-- The allocation number of the next handoff. -/
def nextSequence (o : ControlOutbox) : UInt64 :=
  match (o.handoffs.map Handoff.sequence).max? with
  | some highest => Word64.saturatingAdd highest 1
  | none => 0

/-- The handoffs in canonical order. -/
def sort (payloadCommitment : Bytes → Digest) (handoffs : List Handoff) : List Handoff :=
  handoffs.insertionSort fun a b => (Handoff.canonicalOrder payloadCommitment a b).isLE

/-- Record the ciphertext prepared for a recipient and payload. -/
def recordPrepared (payloadCommitment : Bytes → Digest) (o : ControlOutbox) (recipient : Member)
    (payload ciphertext : Bytes) : Except Error ControlOutbox :=
  match o.handoffs.find? (Handoff.isFor payloadCommitment recipient payload) with
  | some existing => do
    refuseIf (existing.payload ≠ payload ∨ existing.ciphertext ≠ ciphertext) .conflict
    pure o
  | none => do
    refuseIf (maxLiveHandoffs ≤ o.live ∨ !Handoff.isControlPayload payload) .outboxFull
    let handoffs := o.handoffs ++ [⟨recipient, payload, ciphertext, 0, .prepared, o.nextSequence⟩]
    pure (reclaim (sort payloadCommitment handoffs))

/-- Reserve the next attempt of a handoff; the third one is final. -/
def reserve (payloadCommitment : Bytes → Digest) (o : ControlOutbox) (recipient : Member)
    (payload : Bytes) : Except Error (ControlOutbox × Handoff) := do
  let (handoffs, reserved) ← updateFirst (Handoff.isFor payloadCommitment recipient payload)
    Error.malformed (fun h => do
      refuseIf h.disposition.isTerminal Error.wrongDisposition
      let attemptsReserved := h.attemptsReserved + 1
      let disposition := if attemptsReserved = maxAttempts then .exhaustedUnknown else .handedOff
      let reserved := { h with attemptsReserved, disposition }
      pure (reserved, reserved)) o.handoffs
  pure (reclaim handoffs, reserved)

/-- Stop a handoff that is not a revocation to the recipient. -/
def cancelFor (recipient : Member) (h : Handoff) : Handoff :=
  if h.recipient ≠ recipient then h
  else
    match GroupPayload.decode h.payload with
    | .ok (.invitationRevocation _) => h
    | _ =>
      { h with disposition := match h.disposition with
          | .prepared => .cancelled
          | .handedOff => .cancelledAfterHandoff
          | disposition => disposition }

/-- Stop every handoff to a recipient that is not a revocation. -/
def cancelNonRevocationForRecipient (o : ControlOutbox) (recipient : Member) : ControlOutbox :=
  reclaim (o.handoffs.map (cancelFor recipient))

def handoff (payloadCommitment : Bytes → Digest) (o : ControlOutbox) (recipient : Member)
    (payload : Bytes) : Except Error Handoff :=
  match o.handoffs.find? (Handoff.isFor payloadCommitment recipient payload) with
  | some handoff => .ok handoff
  | none => .error .malformed

/-- Record the relay's acceptance of a handoff. -/
def accept (payloadCommitment : Bytes → Digest) (o : ControlOutbox) (recipient : Member)
    (payload : Bytes) : Except Error ControlOutbox := do
  let (handoffs, _) ← updateFirst (Handoff.isFor payloadCommitment recipient payload)
    Error.malformed (fun h => do
      refuseIf (h.disposition ≠ .handedOff ∧ h.disposition ≠ .exhaustedUnknown)
        Error.wrongDisposition
      pure ({ h with disposition := .relayAccepted }, ())) o.handoffs
  pure (reclaim handoffs)

/-! ### The checkpoint -/

/-- Append one handoff of a checkpoint. -/
def putHandoff (out : Bytes) (h : Handoff) : Except Error Bytes := do
  let out ← putLp out h.recipient.identity
  let out ← putLp out h.recipient.device
  let out ← putLp out h.payload
  let out ← putLp out h.ciphertext
  pure (out ++ [h.attemptsReserved, h.disposition.code] ++ u64Bytes h.sequence)

/-- The outbox's checkpoint. -/
def encodeState (payloadCommitment : Bytes → Digest) (o : ControlOutbox) : Except Error Bytes := do
  refuseIf (maxLiveHandoffs < o.live ∨ maxTerminalHandoffs < terminal o.handoffs) .outboxFull
  let entries := sort payloadCommitment o.handoffs
  refuseIf (2 ^ 8 ≤ entries.length) .malformed
  entries.foldlM putHandoff (controlOutboxDomain ++ [entries.length.toUInt8])

/-- Whether the attempts fit where the handoff stands. -/
def attemptsFit (attempts : UInt8) : Disposition → Bool
  | .prepared => attempts = 0
  | .handedOff => attempts ≠ 0 ∧ attempts < maxAttempts
  | .relayAccepted => attempts ≤ maxAttempts
  | .exhaustedUnknown => attempts = maxAttempts
  | .cancelled => attempts = 0
  | .cancelledAfterHandoff => attempts ≠ 0 ∧ attempts ≤ maxAttempts

/-- Take one handoff after those taken before it. -/
def takeHandoff (payloadCommitment : Bytes → Digest) (taken : List Handoff) :
    Reader Error (List Handoff) := do
  let identity ← Reader.takeLp .malformed
  let device ← Reader.takeLp .malformed
  refuseIf (maxIdentityLen < identity.length ∨ maxDeviceLen < device.length) Error.malformed
  let payload ← Reader.takeLp .malformed
  let ciphertext ← Reader.takeLp .malformed
  let attempts ← Reader.takeByte .malformed
  let code ← Reader.takeByte .malformed
  match Disposition.ofCode code with
  | none => throw .malformed
  | some disposition =>
    let sequence ← Reader.takeU64 .malformed
    refuseIf (!attemptsFit attempts disposition ∨ !Handoff.isControlPayload payload)
      Error.malformed
    let recipient : Member := ⟨identity, device⟩
    refuseIf (taken.any fun known => known.sequence = sequence
      ∨ known.isFor payloadCommitment recipient payload) Error.malformed
    pure (taken ++ [⟨recipient, payload, ciphertext, attempts, disposition, sequence⟩])

/-- The reader of `decodeState`. -/
def readState (payloadCommitment : Bytes → Digest) : Reader Error ControlOutbox := do
  Reader.takeExact .malformed controlOutboxDomain
  let count ← Reader.takeByte .malformed
  refuseIf (maxLiveHandoffs + maxTerminalHandoffs < count.toNat) Error.outboxFull
  let handoffs ← Reader.loop (takeHandoff payloadCommitment) count.toNat []
  Reader.finish .malformed
  pure ⟨handoffs⟩

/-- Restore a checkpoint that re-encodes to its own bytes. -/
def decodeState (payloadCommitment : Bytes → Digest) (bytes : Bytes) :
    Except Error ControlOutbox := do
  let outbox ← (readState payloadCommitment).run' bytes
  let canonical ← outbox.encodeState payloadCommitment
  refuseIf (canonical ≠ bytes) .nonCanonical
  pure outbox

end ControlOutbox

end Tacenta.Client
