import Tacenta.Client.Ledger

/-!
# Commits of the group outbox

The commits that record a logical send and the progress of its recipients, the recovery of the
outbox from the transcript they leave, and the compaction of the transcript. The commitment of a
payload is a parameter.

## Main definitions

* `recoverGroupOutbox`, `compactGroupOutbox`.
* `commitLogicalIntent`, `commitOutboxPreparedCiphertext`, `commitOutboxHandoffReservation`,
  `commitOutboxRelayAcceptance`.
-/

open ByteString Records Result Tacenta.Group

namespace Tacenta.Client

variable {S : Type} [OperationStore S] (payloadCommitment : Bytes → Digest)

/-! ### Recovery and compaction -/

/-- The records of a transcript that are selected by the logical send they belong to. -/
def selectRecords (keep : Option LogicalMessageId → Bool) (outbox : List Bytes) :
    Except GroupOperationError (List Bytes) :=
  outbox.foldlM (fun kept entry => do
    let id ← outboxRecordId entry
    pure (if keep id then kept ++ [entry] else kept)) []

/-- Rebuild a group's outbox from a snapshot. -/
def recoverGroupOutbox (snapshot : OperationSnapshot) (groupId : GroupId) :
    Except GroupOperationError GroupOutbox := do
  let cancelled ← latestGroupOutboxCancellation snapshot.groupControls groupId
  let entries ← selectRecords (fun id => id.any fun id => id.groupId = groupId) snapshot.outbox
  policy (GroupOutbox.recoverFromTranscriptAtRevision groupId entries cancelled payloadCommitment)

/-- The records of each logical send, in the order in which the sends first appear. -/
abbrev SendRecords := List (LogicalMessageId × List Bytes)

/-- Add a record to those of its send. -/
def SendRecords.add (groups : SendRecords) (id : LogicalMessageId) (entry : Bytes) : SendRecords :=
  if groups.any fun group => group.1 = id then
    groups.map fun group => if group.1 = id then (group.1, group.2 ++ [entry]) else group
  else groups ++ [(id, [entry])]

/-- The records of a group's sends. -/
def groupOutboxRecords (snapshot : OperationSnapshot) (groupId : GroupId) :
    Except GroupOperationError SendRecords :=
  snapshot.outbox.foldlM (fun (groups : SendRecords) entry => do
    match ← outboxRecordId entry with
    | none => pure groups
    | some id => pure (if id.groupId = groupId then groups.add id entry else groups)) []

/-- Drop the records of the oldest terminal sends beyond the bound, and rebuild the outbox from
what remains if any were dropped. -/
def compactGroupOutbox (snapshot : OperationSnapshot) (groupId : GroupId) :
    Except GroupOperationError (OperationSnapshot × Option GroupOutbox) := do
  let outbox ← recoverGroupOutbox payloadCommitment snapshot groupId
  let groups ← groupOutboxRecords snapshot groupId
  let terminal := (groups.map Prod.fst).filter fun id =>
    (outbox.send id).toOption.any LogicalSend.isTerminal
  if terminal.length ≤ maxTerminalLogicalSends then pure (snapshot, none)
  else
    let dropped := terminal.take (terminal.length - maxTerminalLogicalSends)
    let kept ← selectRecords
      (fun id => !id.any fun id => id.groupId = groupId ∧ id ∈ dropped) snapshot.outbox
    let snapshot := { snapshot with outbox := kept }
    let outbox ← recoverGroupOutbox payloadCommitment snapshot groupId
    pure (snapshot, some outbox)

/-! ### Intents -/

/-- What `commitLogicalIntent` publishes. -/
def logicalIntentPlan (store : S) (snapshot : OperationSnapshot) (outbox : GroupOutbox)
    (send : LogicalSend) : Except GroupOperationError (Plan GroupOutbox OutboxDisposition) := do
  let intent ← policy send.encodeIntent
  let (outbox, disposition) ← policy (outbox.record send)
  if disposition = .duplicate then pure (.settled disposition)
  else
    let candidate ← beginCandidate store snapshot
    let record ← encodeIntentRecord intent
    pure (.publish { candidate with outbox := candidate.outbox ++ [record] } outbox disposition)

/-- Commit a logical send before any recipient is prepared. -/
def commitLogicalIntent (l : Ledger S GroupOutbox) (send : LogicalSend) :
    Ledger S GroupOutbox × Except GroupOperationError OutboxDisposition :=
  l.commit (logicalIntentPlan l.store l.snapshot l.live send)

/-! ### Progress -/

/-- Bind a ciphertext to the recipient's context. -/
def bindPreparedCiphertext (recipient : Member) (ciphertext : Bytes) (send : LogicalSend) :
    Except Error (LogicalSend × RecipientProgress) := do
  let context ← send.applicationContext recipient
  let contextBytes ← context.encode
  discarding (send.recordPrepared recipient (payloadCommitment contextBytes) ciphertext)

/-- What a progress commit records. -/
structure Progressed where
  /-- The outbox after the change. -/
  outbox : GroupOutbox
  /-- The recipient after the change. -/
  progress : RecipientProgress
  /-- The bytes of the recipient's context. -/
  context : Bytes
  /-- The commitment to the context. -/
  commitment : Digest
  ciphertext : Bytes

/-- The change of a send, with the bytes of the recipient's context. -/
def changeSend (recipient : Member)
    (change : LogicalSend → Except Error (LogicalSend × RecipientProgress)) (send : LogicalSend) :
    Except Error (LogicalSend × RecipientProgress × Bytes) := do
  let (send, progress) ← change send
  let context ← send.applicationContext recipient
  let contextBytes ← context.encode
  pure (send, progress, contextBytes)

/-- Change one recipient of a recorded send. -/
def progressSend (outbox : GroupOutbox) (id : LogicalMessageId) (recipient : Member)
    (change : LogicalSend → Except Error (LogicalSend × RecipientProgress)) :
    Except GroupOperationError Progressed := do
  let (outbox, progress, context) ← policy (outbox.sendMut id (changeSend recipient change))
  match progress.contextCommitment, progress.ciphertext with
  | some commitment, some ciphertext => pure ⟨outbox, progress, context, commitment, ciphertext⟩
  | _, _ => .error .policy

/-- What `commitOutboxPreparedCiphertext` publishes. -/
def outboxPreparedCiphertextPlan (store : S) (snapshot : OperationSnapshot) (outbox : GroupOutbox)
    (id : LogicalMessageId) (recipient : Member) (ciphertext providerState : Bytes) :
    Except GroupOperationError (Plan GroupOutbox RecipientProgress) := do
  let p ← progressSend outbox id recipient
    (bindPreparedCiphertext payloadCommitment recipient ciphertext)
  let candidate ← beginCandidate store snapshot
  let record ← encodePreparedRecord p.context p.commitment p.ciphertext
  pure (.publish { candidate with outbox := candidate.outbox ++ [record], providerState } p.outbox
    p.progress)

/-- Commit a recipient's exact ciphertext with the provider state that produced it. -/
def commitOutboxPreparedCiphertext (l : Ledger S GroupOutbox) (id : LogicalMessageId)
    (recipient : Member) (ciphertext providerState : Bytes) :
    Ledger S GroupOutbox × Except GroupOperationError RecipientProgress :=
  l.commit (outboxPreparedCiphertextPlan payloadCommitment l.store l.snapshot l.live id recipient
    ciphertext providerState)

/-- Publish a progress record that may end its send, with the transcript compacted. -/
def compactingPlan (store : S) (snapshot : OperationSnapshot) (id : LogicalMessageId)
    (p : Progressed) (encodeRecord : Except GroupOperationError Bytes) :
    Except GroupOperationError (Plan GroupOutbox RecipientProgress) := do
  let candidate ← beginCandidate store snapshot
  let record ← encodeRecord
  let (candidate, compacted) ← compactGroupOutbox payloadCommitment
    { candidate with outbox := candidate.outbox ++ [record] } id.groupId
  pure (.publish candidate (compacted.getD p.outbox) p.progress)

/-- What `commitOutboxHandoffReservation` publishes. -/
def outboxHandoffReservationPlan (store : S) (snapshot : OperationSnapshot) (outbox : GroupOutbox)
    (id : LogicalMessageId) (recipient : Member) :
    Except GroupOperationError (Plan GroupOutbox RecipientProgress) := do
  let p ← progressSend outbox id recipient fun send => discarding (send.reserveHandoff recipient)
  compactingPlan payloadCommitment store snapshot id p
    (encodeHandoffRecord p.context p.commitment p.ciphertext p.progress)

/-- Commit the reservation of an attempt before it is sent. -/
def commitOutboxHandoffReservation (l : Ledger S GroupOutbox) (id : LogicalMessageId)
    (recipient : Member) : Ledger S GroupOutbox × Except GroupOperationError RecipientProgress :=
  l.commit (outboxHandoffReservationPlan payloadCommitment l.store l.snapshot l.live id recipient)

/-- What `commitOutboxRelayAcceptance` publishes. -/
def outboxRelayAcceptancePlan (store : S) (snapshot : OperationSnapshot) (outbox : GroupOutbox)
    (id : LogicalMessageId) (recipient : Member) :
    Except GroupOperationError (Plan GroupOutbox RecipientProgress) := do
  let p ← progressSend outbox id recipient fun send =>
    discarding (send.recordRelayAccepted recipient)
  compactingPlan payloadCommitment store snapshot id p
    (encodeRelayAcceptanceRecord p.context p.commitment p.ciphertext)

/-- Commit the relay's acceptance of a handed-off ciphertext. -/
def commitOutboxRelayAcceptance (l : Ledger S GroupOutbox) (id : LogicalMessageId)
    (recipient : Member) : Ledger S GroupOutbox × Except GroupOperationError RecipientProgress :=
  l.commit (outboxRelayAcceptancePlan payloadCommitment l.store l.snapshot l.live id recipient)

end Tacenta.Client
