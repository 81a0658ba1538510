import Tacenta.Group.Codec
import Tacenta.Library.Records
import Tacenta.Library.Word64

/-!
# Logical sends and the group outbox

One logical message goes to a fixed set of recipients. Its intent is recorded before anything is
encrypted; each recipient then moves through its dispositions by itself. The outbox keeps a group's
logical sends and is rebuilt after a restart from the ordered transcript of their records.

## Main definitions

* `RecipientProgress`, `LogicalSend`: a logical send and where each recipient stands.
* `GroupOutbox`: the sends of a group, with `GroupOutbox.record` and
  `GroupOutbox.cancelForNewerRoster`.
* `GroupOutbox.recoverFromTranscriptAtRevision`: the outbox of a transcript.
-/

open ByteString Records Result

namespace Tacenta.Group

/-- Domain of an intent's bytes. -/
def logicalSendDomain : Bytes := ascii "Tacenta Group Logical Send v1"

/-- An application identifier of one logical message. -/
structure LogicalMessageId where
  groupId : GroupId
  /-- The roster revision it was sent at. -/
  revision : UInt64
  sender : Member
  /-- The sender's sequence number. -/
  sequence : UInt64
  deriving DecidableEq

/-- An identifier of a revision that a roster can have. -/
def LogicalMessageId.new (groupId : GroupId) (revision : UInt64) (sender : Member)
    (sequence : UInt64) : Except Error LogicalMessageId := do
  refuseIf (revision = Group.reservedRevision) .reservedRevision
  pure ⟨groupId, revision, sender, sequence⟩

/-! ### One recipient -/

/-- The state of one recipient's ciphertext. -/
inductive RecipientDisposition where
  | pending
  | prepared
  | handedOff
  | relayAccepted
  | cancelled
  | cancelledAfterHandoff
  | exhaustedUnknown
  deriving DecidableEq

/-- Whether nothing more is sent to the recipient. -/
def RecipientDisposition.isTerminal : RecipientDisposition → Bool
  | .relayAccepted | .cancelled | .cancelledAfterHandoff | .exhaustedUnknown => true
  | .pending | .prepared | .handedOff => false

/-- The durable value of one recipient. -/
structure RecipientProgress where
  recipient : Member
  /-- Its state. -/
  disposition : RecipientDisposition
  /-- The commitment to the recipient's context. -/
  contextCommitment : Option Digest
  ciphertext : Option Bytes
  /-- The number of attempts reserved. -/
  attemptsReserved : UInt8
  deriving DecidableEq

namespace RecipientProgress

/-- A recipient for whom nothing is prepared. -/
def fresh (recipient : Member) : RecipientProgress := ⟨recipient, .pending, none, none, 0⟩

/-- Store the recipient's ciphertext once; an equal retry is safe. -/
def recordPrepared (contextCommitment : Digest) (ciphertext : Bytes) (p : RecipientProgress) :
    RecipientProgress × Except Error Unit :=
  match p.disposition with
  | .pending =>
    ({ p with
        contextCommitment := some contextCommitment
        ciphertext := some ciphertext
        disposition := .prepared }, .ok ())
  | .prepared | .handedOff =>
    if p.contextCommitment = some contextCommitment ∧ p.ciphertext = some ciphertext then
      (p, .ok ())
    else (p, .error .conflict)
  | .relayAccepted | .cancelled | .cancelledAfterHandoff | .exhaustedUnknown =>
    (p, .error .wrongDisposition)

/-- Reserve an attempt; the third is the last. -/
def reserveHandoff (p : RecipientProgress) : RecipientProgress × Except Error Unit :=
  match p.disposition with
  | .prepared | .handedOff =>
    if p.ciphertext = none then (p, .error .wrongDisposition)
    else if 3 ≤ p.attemptsReserved then
      ({ p with disposition := .exhaustedUnknown }, .error .retryExhausted)
    else
      ({ p with
          attemptsReserved := p.attemptsReserved + 1
          disposition := if p.attemptsReserved + 1 = 3 then .exhaustedUnknown else .handedOff },
        .ok ())
  | .pending | .relayAccepted | .cancelled | .cancelledAfterHandoff =>
    (p, .error .wrongDisposition)
  | .exhaustedUnknown => (p, .error .retryExhausted)

/-- Record that the relay accepted an attempt. -/
def recordRelayAccepted (p : RecipientProgress) : RecipientProgress × Except Error Unit :=
  match p.disposition with
  | .handedOff | .exhaustedUnknown => ({ p with disposition := .relayAccepted }, .ok ())
  | .pending | .prepared | .cancelled | .cancelledAfterHandoff | .relayAccepted =>
    (p, .error .wrongDisposition)

/-- Stop an unfinished recipient. -/
def cancel (p : RecipientProgress) : RecipientProgress :=
  match p.disposition with
  | .pending | .prepared => { p with disposition := .cancelled }
  | .handedOff => { p with disposition := .cancelledAfterHandoff }
  | .relayAccepted | .cancelled | .cancelledAfterHandoff | .exhaustedUnknown => p

end RecipientProgress

/-! ### Logical sends -/

/-- A send to a fixed set of recipients. -/
structure LogicalSend where
  /-- Its identifier. -/
  id : LogicalMessageId
  /-- The digest of the roster it was sent at. -/
  rosterDigest : Digest
  /-- The application's bytes. -/
  payload : Bytes
  recipients : List RecipientProgress
  deriving DecidableEq

/-- The recipients of a new send: members of the roster in canonical order, one per identity. -/
def validateRecipients (roster : Roster) (recipients : List Member) : Except Error Unit :=
  checkMembers (fun m => refuseIf (m ∉ roster.members) .notMember) none [] recipients

/-- The recipients of a recorded send: in canonical order, one per identity. -/
def validateRecoveryRecipients (recipients : List Member) : Except Error Unit :=
  checkMembers (fun _ => pure ()) none [] recipients

namespace LogicalSend

/-- A new send by a member of an open roster. -/
def new (roster : Roster) (rosterDigest : Digest) (sender : Member) (sequence : UInt64)
    (recipients : List Member) (payload : Bytes) : Except Error LogicalSend := do
  refuseIf roster.closed .closed
  refuseIf (roster.revision = Group.reservedRevision) .reservedRevision
  refuseIf (sender ∉ roster.members) .notMember
  refuseIf recipients.isEmpty .emptyRecipients
  refuseIf (maxPayloadLen < payload.length) .payloadTooLarge
  validateRecipients roster recipients
  let id ← LogicalMessageId.new roster.groupId roster.revision sender sequence
  pure ⟨id, rosterDigest, payload, recipients.map RecipientProgress.fresh⟩

/-- Whether nothing more is sent to any recipient. -/
def isTerminal (s : LogicalSend) : Bool := s.recipients.all fun p => p.disposition.isTerminal

/-- The checks that `decodeIntent` makes, in the order in which it meets them. -/
def validateIntent (s : LogicalSend) : Except Error Unit := do
  s.id.sender.validate
  refuseIf (maxPayloadLen < s.payload.length) .payloadTooLarge
  refuseIf s.recipients.isEmpty .emptyRecipients
  refuseIf (maxMembers < s.recipients.length) .tooManyMembers
  s.recipients.forM fun p => p.recipient.validate
  validateRecoveryRecipients (s.recipients.map RecipientProgress.recipient)
  refuseIf (s.id.revision = Group.reservedRevision) .reservedRevision

/-- The immutable intent's bytes. -/
def encodeIntent (s : LogicalSend) : Except Error Bytes := do
  s.validateIntent
  let out := logicalSendDomain
  let out ← putLp out s.id.groupId.bytes.val
  let out := out ++ u64Bytes s.id.revision
  let out ← putMember out s.id.sender
  let out := out ++ u64Bytes s.id.sequence
  let out ← putLp out s.rosterDigest.val
  let out ← putLp out s.payload
  let out ← putU32 out s.recipients.length
  (s.recipients.map RecipientProgress.recipient).foldlM putMember out

/-- The reader of `decodeIntent`. -/
def readIntent : Reader Error LogicalSend := do
  Reader.takeExact .malformed logicalSendDomain
  let groupId ← GroupId.tryFrom (← Reader.takeLp .malformed)
  let revision ← Reader.takeU64 .malformed
  let sender ← takeMember
  let sequence ← Reader.takeU64 .malformed
  let rosterDigest ← Reader.exactly Error.malformed digestLen (← Reader.takeLp .malformed)
  let payload ← Reader.takeLp .malformed
  refuseIf (maxPayloadLen < payload.length) Error.payloadTooLarge
  let count ← Reader.takeU32 .malformed
  refuseIf (count = 0) Error.emptyRecipients
  refuseIf (maxMembers < count.toNat) Error.tooManyMembers
  let recipients ← Reader.many takeMember count.toNat
  Reader.finish .malformed
  validateRecoveryRecipients recipients
  let id ← LogicalMessageId.new groupId revision sender sequence
  pure ⟨id, rosterDigest, payload, recipients.map RecipientProgress.fresh⟩

/-- Decode an exact, canonical intent; its recipients start fresh. -/
def decodeIntent (bytes : Bytes) : Except Error LogicalSend := readIntent.run' bytes

/-- Whether two sends have the same intent. -/
def sameImmutableFields (s candidate : LogicalSend) : Bool :=
  s.id = candidate.id ∧ s.rosterDigest = candidate.rosterDigest ∧ s.payload = candidate.payload ∧
    s.recipients.map RecipientProgress.recipient =
      candidate.recipients.map RecipientProgress.recipient

/-- Where a recipient stands. -/
def progress (s : LogicalSend) (recipient : Member) : Except Error RecipientProgress :=
  match s.recipients.find? fun p => p.recipient = recipient with
  | some p => .ok p
  | none => .error .notMember

/-- The plaintext for one recipient. -/
def applicationContext (s : LogicalSend) (recipient : Member) :
    Except Error ApplicationContext := do
  let _ ← s.progress recipient
  ApplicationContext.new s.id.groupId s.id.revision s.rosterDigest s.id.sender recipient
    s.id.sequence s.payload

/-- Change one recipient by a method, and answer with the recipient after it. -/
def onProgress (s : LogicalSend) (recipient : Member)
    (method : RecipientProgress → RecipientProgress × Except Error Unit) :
    LogicalSend × Except Error RecipientProgress :=
  match updateFirst (fun p => p.recipient = recipient) Error.notMember
    (fun p => .ok ((method p).1, (method p).2.map fun _ => (method p).1)) s.recipients with
  | .ok (recipients, answer) => ({ s with recipients }, answer)
  | .error e => (s, .error e)

/-- Store a recipient's ciphertext. -/
def recordPrepared (s : LogicalSend) (recipient : Member) (contextCommitment : Digest)
    (ciphertext : Bytes) : LogicalSend × Except Error RecipientProgress :=
  s.onProgress recipient (RecipientProgress.recordPrepared contextCommitment ciphertext)

/-- Reserve an attempt for a recipient. -/
def reserveHandoff (s : LogicalSend) (recipient : Member) :
    LogicalSend × Except Error RecipientProgress :=
  s.onProgress recipient RecipientProgress.reserveHandoff

/-- Record that the relay accepted a recipient's ciphertext. -/
def recordRelayAccepted (s : LogicalSend) (recipient : Member) :
    LogicalSend × Except Error RecipientProgress :=
  s.onProgress recipient RecipientProgress.recordRelayAccepted

/-- Stop the unfinished recipients of a send below a revision. -/
def cancelForNewerRoster (s : LogicalSend) (revision : UInt64) : LogicalSend :=
  if revision ≤ s.id.revision then s
  else { s with recipients := s.recipients.map RecipientProgress.cancel }

end LogicalSend

/-! ### The outbox -/

/-- Whether a logical intent was new. -/
inductive OutboxDisposition where
  | inserted
  | duplicate
  deriving DecidableEq

/-- The logical sends of a group. -/
structure GroupOutbox where
  groupId : GroupId
  /-- The sends, in the order in which they were recorded. -/
  sends : List LogicalSend
  /-- The newest roster revision applied. -/
  appliedRevision : UInt64
  deriving DecidableEq

namespace GroupOutbox

/-- An outbox without sends. -/
def new (groupId : GroupId) : GroupOutbox := ⟨groupId, [], 0⟩

/-- The highest retained sequence of a sender at a revision. -/
def highestSequence (o : GroupOutbox) (revision : UInt64) (sender : Member) : Option UInt64 :=
  ((o.sends.filter fun s => s.id.revision = revision ∧ s.id.sender = sender).map
    fun s => s.id.sequence).max?

def nextSequence (o : GroupOutbox) (revision : UInt64) (sender : Member) : Except Error UInt64 :=
  match o.highestSequence revision sender with
  | none => .ok 0
  | some highest =>
    match Word64.checkedAdd highest 1 with
    | some next => .ok next
    | none => .error .sequenceExhausted

/-- The send with an identifier. -/
def send (o : GroupOutbox) (id : LogicalMessageId) : Except Error LogicalSend :=
  match o.sends.find? fun s => s.id = id with
  | some s => .ok s
  | none => .error .malformed

/-- Change the send with an identifier. -/
def sendMut {α : Type} (o : GroupOutbox) (id : LogicalMessageId)
    (f : LogicalSend → Except Error (LogicalSend × α)) : Except Error (GroupOutbox × α) := do
  let (sends, a) ← updateFirst (fun s => s.id = id) Error.malformed f o.sends
  pure ({ o with sends }, a)

/-- Whether a send is not ended by a cancellation that is to come. -/
def staysLive (cancelledBelow : Option UInt64) (s : LogicalSend) : Bool :=
  cancelledBelow.all fun revision => revision ≤ s.id.revision

/-- Add a send. During a recovery that will apply a cancellation, a send below it neither counts
toward the bound on live sends nor is refused by it. -/
def insert (o : GroupOutbox) (send : LogicalSend) (cancelledBelow : Option UInt64) :
    Except Error (GroupOutbox × OutboxDisposition) := do
  refuseIf (send.id.groupId ≠ o.groupId) .conflict
  match o.sends.find? fun known => known.id = send.id with
  | some known =>
    refuseIf (!known.sameImmutableFields send) .conflict
    pure (o, .duplicate)
  | none =>
    refuseIf (send.id.revision < o.appliedRevision) .staleRevision
    refuseIf ((o.highestSequence send.id.revision send.id.sender).any
      fun highest => send.id.sequence ≤ highest) .sequenceOrder
    refuseIf (staysLive cancelledBelow send ∧ maxLiveLogicalSends ≤
      o.sends.countP fun known => !known.isTerminal && staysLive cancelledBelow known) .outboxFull
    pure ({ o with sends := o.sends ++ [send] }, .inserted)

def record (o : GroupOutbox) (send : LogicalSend) :
    Except Error (GroupOutbox × OutboxDisposition) := o.insert send none

/-- Apply an accepted newer roster. -/
def cancelForNewerRoster (o : GroupOutbox) (revision : UInt64) : GroupOutbox :=
  { o with
    appliedRevision := max o.appliedRevision revision
    sends := o.sends.map fun s => s.cancelForNewerRoster revision }

end GroupOutbox

/-! ### Recovery from a transcript -/

/-- The send of an intent record, after its tag. -/
def decodeIntentRecord (bytes : Bytes) : Except Error LogicalSend := do
  let intent ← (Reader.takeU32 Error.malformed >>= fun length => do
    let intent ← Reader.takeRest
    refuseIf (intent.length ≠ length.toNat) Error.malformed
    pure intent).run' bytes
  LogicalSend.decodeIntent intent

/-- The logical message that a context belongs to. -/
def logicalIdFromContext (context : ApplicationContext) : Except Error LogicalMessageId :=
  LogicalMessageId.new context.groupId context.revision context.sender context.logicalSequence

/-- A progress record, with the bytes after it. -/
structure ProgressRecord where
  /-- The recipient's context. -/
  context : ApplicationContext
  /-- The commitment to the context. -/
  commitment : Digest
  ciphertext : Bytes
  /-- What follows. -/
  rest : Bytes
  deriving DecidableEq

/-- The reader of `decodeProgressRecord`. -/
def readProgressRecord : Reader Error ProgressRecord := do
  let context ← ApplicationContext.decode (← Reader.takeLp .malformed)
  let commitment ← Reader.takeArray Error.malformed digestLen
  let ciphertext ← Reader.takeLp .malformed
  let rest ← Reader.takeRest
  pure ⟨context, commitment, ciphertext, rest⟩

/-- The progress record after a tag. -/
def decodeProgressRecord (bytes : Bytes) : Except Error ProgressRecord :=
  readProgressRecord.run' bytes

/-- The attempts and the disposition that end a handoff record. -/
def decodeHandoffSuffix : Bytes → Except Error (UInt8 × RecipientDisposition)
  | [attempts, code] =>
    if code = 0 then .ok (attempts, .handedOff)
    else if code = 1 then .ok (attempts, .exhaustedUnknown)
    else .error .malformed
  | _ => .error .malformed

namespace GroupOutbox

/-- What a progress record says about its send: the preparation is repeated, or, for a relay
acceptance after the final attempt, compared with what was handed off. -/
def replayPreparation (record : ProgressRecord) (afterFinalAttempt : Bool) (send : LogicalSend) :
    Except Error (LogicalSend × Unit) := do
  let recipient := record.context.recipient
  let context ← send.applicationContext recipient
  refuseIf (context ≠ record.context) .conflict
  let stored ← send.progress recipient
  if afterFinalAttempt ∧ stored.disposition = .exhaustedUnknown then
    refuseIf (¬(stored.contextCommitment = some record.commitment ∧
      stored.ciphertext = some record.ciphertext)) .conflict
    pure (send, ())
  else
    let (send, _) ← discarding (send.recordPrepared recipient record.commitment record.ciphertext)
    pure (send, ())

/-- Replay the preparation that a progress record repeats. -/
def applyRecoveredPreparation (o : GroupOutbox) (groupId : GroupId) (record : ProgressRecord)
    (payloadCommitment : Bytes → Digest) (afterFinalAttempt : Bool) : Except Error GroupOutbox :=
  if record.context.groupId ≠ groupId then .ok o
  else do
    let contextBytes ← record.context.encode
    refuseIf (record.commitment ≠ payloadCommitment contextBytes) .conflict
    let id ← logicalIdFromContext record.context
    let (o, ()) ← o.sendMut id (replayPreparation record afterFinalAttempt)
    pure o

/-- Replay an intent record. -/
def replayIntent (groupId : GroupId) (appliedRevision : Option UInt64) (o : GroupOutbox)
    (body : Bytes) : Except Error GroupOutbox := do
  let send ← decodeIntentRecord body
  if send.id.groupId ≠ groupId then pure o
  else
    let (o, disposition) ← o.insert send appliedRevision
    refuseIf (disposition ≠ .inserted) .conflict
    pure o

/-- Replay a preparation record. -/
def replayPrepared (groupId : GroupId) (payloadCommitment : Bytes → Digest) (o : GroupOutbox)
    (body : Bytes) : Except Error GroupOutbox := do
  let record ← decodeProgressRecord body
  refuseIf (!record.rest.isEmpty) .malformed
  o.applyRecoveredPreparation groupId record payloadCommitment false

/-- What a handoff record says about its send: the next attempt is reserved with the recorded
result. -/
def replayReservation (recipient : Member) (attempts : UInt8) (disposition : RecipientDisposition)
    (send : LogicalSend) : Except Error (LogicalSend × Unit) := do
  let prior ← send.progress recipient
  refuseIf (256 ≤ prior.attemptsReserved.toNat + 1) .malformed
  refuseIf (attempts ≠ prior.attemptsReserved + 1) .malformed
  let (send, progress) ← discarding (send.reserveHandoff recipient)
  refuseIf (progress.attemptsReserved ≠ attempts ∨ progress.disposition ≠ disposition) .malformed
  pure (send, ())

/-- Replay a handoff record. -/
def replayHandoff (groupId : GroupId) (payloadCommitment : Bytes → Digest) (o : GroupOutbox)
    (body : Bytes) : Except Error GroupOutbox := do
  let record ← decodeProgressRecord body
  let (attempts, disposition) ← decodeHandoffSuffix record.rest
  if record.context.groupId ≠ groupId then pure o
  else
    let o ← o.applyRecoveredPreparation groupId record payloadCommitment false
    let id ← logicalIdFromContext record.context
    let (o, ()) ← o.sendMut id (replayReservation record.context.recipient attempts disposition)
    pure o

/-- Replay a relay acceptance record. -/
def replayAcceptance (groupId : GroupId) (payloadCommitment : Bytes → Digest) (o : GroupOutbox)
    (body : Bytes) : Except Error GroupOutbox := do
  let record ← decodeProgressRecord body
  refuseIf (!record.rest.isEmpty) .malformed
  if record.context.groupId ≠ groupId then pure o
  else
    let o ← o.applyRecoveredPreparation groupId record payloadCommitment true
    let id ← logicalIdFromContext record.context
    let (o, _) ← o.sendMut id fun send =>
      discarding (send.recordRelayAccepted record.context.recipient)
    pure o

/-- Replay one record of a transcript. -/
def replayEntry (groupId : GroupId) (appliedRevision : Option UInt64)
    (payloadCommitment : Bytes → Digest) (o : GroupOutbox) (entry : Bytes) :
    Except Error GroupOutbox :=
  if entry.length < 4 then
    if ascii "TCG" <+: entry then .error .malformed else .ok o
  else if entry.take 4 = ascii "TCGI" then o.replayIntent groupId appliedRevision (entry.drop 4)
  else if entry.take 4 = ascii "TCGP" then o.replayPrepared groupId payloadCommitment (entry.drop 4)
  else if entry.take 4 = ascii "TCGH" then o.replayHandoff groupId payloadCommitment (entry.drop 4)
  else if entry.take 4 = ascii "TCGA" then
    o.replayAcceptance groupId payloadCommitment (entry.drop 4)
  else if ascii "TCG" <+: entry then .error .malformed
  else .ok o

/-- Rebuild a group's outbox from its transcript and apply the newest roster change to it. -/
def recoverFromTranscriptAtRevision (groupId : GroupId) (entries : List Bytes)
    (appliedRevision : Option UInt64) (payloadCommitment : Bytes → Digest) :
    Except Error GroupOutbox := do
  let o ← entries.foldlM (replayEntry groupId appliedRevision payloadCommitment) (new groupId)
  pure (match appliedRevision with
    | some revision => o.cancelForNewerRoster revision
    | none => o)

end GroupOutbox

end Tacenta.Group
