import Tacenta.Client.ControlOutbox
import Tacenta.Client.DeferredRosters
import Tacenta.Client.OperationStore
import Tacenta.Group.Receive
import Tacenta.Group.Send

/-!
# The records of a group's snapshot

Every list of an operation snapshot holds tagged records: sends in `outbox`, receive dispositions in
`inbox`, roster and invitation controls in `groupControls`. The checkpoint records among the
controls replace the previous one of their kind and are never the ones that the bound evicts.

## Main definitions

* `GroupOperationError`: why a group operation does not cross its durable boundary.
* `encodeIntentRecord`, `encodePreparedRecord`, `encodeHandoffRecord`,
  `encodeRelayAcceptanceRecord`, `outboxRecordId`: the records of sends.
* `encodeReceiveRecord`, `encodeMalformedRecord`, `recordReceive`, `receiveRecordLayout`: the
  records of receives.
* `appendGroupControlRecords`, `latestCheckpoint`, `latestGroupOutboxCancellation`: the controls.
-/

open ByteString Result Tacenta.Group

namespace Tacenta.Client

/-- Largest number of control records. -/
def maxGroupControlRecords : Nat := 64

/-- Largest number of receive records. -/
def maxInboxRecords : Nat := 64

/-- Largest number of accepted-context commitments. -/
def maxDedupRecords : Nat := 512

/-- Largest number of terminal logical sends whose records are kept. -/
def maxTerminalLogicalSends : Nat := 16

/-- Why a group operation did not cross its durable boundary. -/
inductive GroupOperationError where
  | policy
  | frozen
  deriving DecidableEq

/-- Any refusal of the group policy is the same to the client. -/
def policy {ε α : Type} (x : Except ε α) : Except GroupOperationError α :=
  x.mapError fun _ => .policy

theorem policy_eq_ok {ε α : Type} {x : Except ε α} {a : α} : policy x = .ok a ↔ x = .ok a :=
  mapError_eq_ok

/-- What an operation did to the provider's state. -/
inductive CryptoStateEffect where
  | unchanged
  | advanced
  | terminal
  deriving DecidableEq

/-- The byte of an effect. -/
def CryptoStateEffect.code : CryptoStateEffect → UInt8
  | .unchanged => 0
  | .advanced => 1
  | .terminal => 2

/-! ### Records of sends -/

def encodeIntentRecord (intent : Bytes) : Except GroupOperationError Bytes :=
  policy (putLp (ascii "TCGI") intent)

/-- A tagged record of a recipient's context, its commitment and its ciphertext. -/
def encodeProgressRecord (tag context : Bytes) (commitment : Digest) (ciphertext : Bytes) :
    Except GroupOperationError Bytes := do
  let record ← policy (putLp tag context)
  policy (putLp (record ++ commitment.val) ciphertext)

/-- The record of a preparation. -/
def encodePreparedRecord (context : Bytes) (commitment : Digest) (ciphertext : Bytes) :
    Except GroupOperationError Bytes :=
  encodeProgressRecord (ascii "TCGP") context commitment ciphertext

/-- The byte of the disposition of a reserved handoff. -/
def handoffCode : RecipientDisposition → Except GroupOperationError UInt8
  | .handedOff => .ok 0
  | .exhaustedUnknown => .ok 1
  | _ => .error .policy

/-- The record of a reserved handoff. -/
def encodeHandoffRecord (context : Bytes) (commitment : Digest) (ciphertext : Bytes)
    (progress : RecipientProgress) : Except GroupOperationError Bytes := do
  let disposition ← handoffCode progress.disposition
  let record ← encodeProgressRecord (ascii "TCGH") context commitment ciphertext
  pure (record ++ [progress.attemptsReserved, disposition])

def encodeRelayAcceptanceRecord (context : Bytes) (commitment : Digest) (ciphertext : Bytes) :
    Except GroupOperationError Bytes :=
  encodeProgressRecord (ascii "TCGA") context commitment ciphertext

/-- The byte string after a length, whatever follows it. -/
def lengthPrefixed (bytes : Bytes) : Except GroupOperationError Bytes :=
  (Reader.takeLp GroupOperationError.policy).run' bytes

/-- The logical send that a transcript record belongs to, if it is a record of sends. -/
def outboxRecordId (entry : Bytes) : Except GroupOperationError (Option LogicalMessageId) :=
  if entry.length < 4 then
    if ascii "TCG" <+: entry then .error .policy else .ok none
  else if entry.take 4 = ascii "TCGI" then do
    let send ← policy (LogicalSend.decodeIntent (← lengthPrefixed (entry.drop 4)))
    pure (some send.id)
  else if entry.take 4 = ascii "TCGP" ∨ entry.take 4 = ascii "TCGH" ∨ entry.take 4 = ascii "TCGA"
  then do
    let context ← policy (ApplicationContext.decode (← lengthPrefixed (entry.drop 4)))
    some <$> policy (logicalIdFromContext context)
  else if ascii "TCG" <+: entry then .error .policy
  else .ok none

/-! ### Records of receives -/

/-- Append a record and drop the oldest beyond a bound. -/
def pushBounded (collection : List Bytes) (item : Bytes) (bound : Nat) : List Bytes :=
  (collection ++ [item]).drop (collection.length + 1 - bound)

/-- The byte of a receive refusal. -/
def receiveRefusalCode : ReceiveRefusal → UInt8
  | .malformed => 0
  | .wrongPeer => 1
  | .wrongGroup => 2
  | .wrongRecipient => 3
  | .notActive => 4
  | .oldRevision => 5
  | .invalidRoster => 6
  | .futureOutOfRange => 7
  | .sequenceExpired => 8
  | .conflict => 9
  | .deferredFull => 10

def receiveDispositionBytes : ReceiveDisposition → Bytes
  | .accepted eventId => 0 :: u64Bytes eventId
  | .duplicate eventId => 1 :: u64Bytes eventId
  | .deferred => [2]
  | .rejected refusal => [3, receiveRefusalCode refusal]

/-- The record of a receive disposition. -/
def encodeReceiveRecord (providerEffect : CryptoStateEffect) (context : Bytes)
    (commitment : Digest) (disposition : ReceiveDisposition) :
    Except GroupOperationError Bytes := do
  let record ← policy (putLp (ascii "TCGR" ++ [providerEffect.code]) context)
  pure (record ++ commitment.val ++ receiveDispositionBytes disposition)

/-- The record of a plaintext that is not kept: its length and its commitment. -/
def encodeMalformedRecord (payloadCommitment : Bytes → Digest) (providerEffect : CryptoStateEffect)
    (plaintext : Bytes) : Except GroupOperationError Bytes := do
  let record ← policy (putU32 (ascii "TCGM" ++ [providerEffect.code]) plaintext.length)
  pure (record ++ (payloadCommitment plaintext).val)

/-- Record one disposition; only an accepted context is kept, with its commitment. -/
def recordReceive (snapshot : OperationSnapshot) (providerEffect : CryptoStateEffect)
    (context : Bytes) (commitment : Digest) (disposition : ReceiveDisposition) :
    Except GroupOperationError OperationSnapshot := do
  let accepted := match disposition with
    | .accepted _ => true
    | _ => false
  let record ← encodeReceiveRecord providerEffect (if accepted then context else []) commitment
    disposition
  pure { snapshot with
    inbox := pushBounded snapshot.inbox record maxInboxRecords
    dedup := if accepted then pushBounded snapshot.dedup commitment.val maxDedupRecords
      else snapshot.dedup }

/-- Where the pieces of a receive record lie. -/
structure ReceiveRecordLayout where
  /-- The end of the context, which starts at the ninth byte. -/
  contextEnd : Nat
  /-- The event of an accepted disposition. -/
  acceptedEvent : Option UInt64
  deriving DecidableEq

/-- The pieces of a receive record. -/
def receiveRecordLayout (record : Bytes) : Option ReceiveRecordLayout := do
  guard (ascii "TCGR" <+: record ∧ 9 ≤ record.length)
  let contextEnd := 9 + ofBe ((record.drop 5).take 4)
  guard (contextEnd + 32 ≤ record.length)
  match record.drop (contextEnd + 32) with
  | [] => none
  | tag :: tail =>
    if tag = 0 then
      guard (8 ≤ tail.length)
      pure ⟨contextEnd, some (ofBe (tail.take 8)).toUInt64⟩
    else pure ⟨contextEnd, none⟩

/-- A record without its context, if its event is below the cursor. -/
def scrubRecord (cursor : UInt64) (record : Bytes) : Bytes :=
  match receiveRecordLayout record with
  | none => record
  | some layout =>
    if layout.acceptedEvent.any (fun eventId => eventId < cursor) ∧ 9 < layout.contextEnd then
      record.take 5 ++ u32Bytes 0 ++ record.drop layout.contextEnd
    else record

/-! ### Control records -/

def checkpointTags : List Bytes :=
  [ascii "TCGV", ascii "TCGB", ascii "TCGO", ascii "TCGX", ascii "TCGQ", ascii "TCGS"]

/-- How many leading bytes say which checkpoint a record replaces. -/
def checkpointScope (tag : Bytes) : Nat :=
  if tag = ascii "TCGX" ∨ tag = ascii "TCGQ" ∨ tag = ascii "TCGS" then 4 + groupIdLen else 4

/-- Whether a record starts with a tag. -/
def hasTag (tag record : Bytes) : Bool := tag <+: record

/-- The leading bytes of a record that is long enough. -/
def leading (count : Nat) (record : Bytes) : Option Bytes :=
  if count ≤ record.length then some (record.take count) else none

/-- Whether a record of a tag replaces a known one. -/
def replaces (tag record known : Bytes) : Bool :=
  hasTag tag known ∧ leading (checkpointScope tag) known = leading (checkpointScope tag) record

/-- Append a record; a checkpoint replaces the previous one of its kind. -/
def pushControl (controls : List Bytes) (record : Bytes) : List Bytes :=
  (match checkpointTags.find? fun tag => hasTag tag record with
    | some tag => controls.filter fun known => !replaces tag record known
    | none => controls) ++ [record]

/-- Drop the oldest record that is not the latest of a kind of checkpoint. -/
def evictOldest : List Bytes → List Bytes
  | [] => []
  | record :: rest =>
    if checkpointTags.any fun tag => hasTag tag record && !rest.any (hasTag tag) then
      record :: evictOldest rest
    else rest

/-- Append records and evict the oldest ones beyond the bound. -/
def appendGroupControlRecords (controls records : List Bytes) : List Bytes :=
  let controls := records.foldl pushControl controls
  evictOldest^[controls.length - maxGroupControlRecords] controls

/-- The latest control record that starts with a scope. -/
def latestCheckpoint (controls : List Bytes) (scope : Bytes) : Option Bytes :=
  controls.reverse.find? (hasTag scope)

def encodeCheckpointRecord (tag state : Bytes) : Except GroupOperationError Bytes :=
  policy (putLp tag state)

/-- The checkpoint of a roster view. -/
def encodeRosterViewRecord : Bytes → Except GroupOperationError Bytes :=
  encodeCheckpointRecord (ascii "TCGV")

/-- The checkpoint of an invitation book. -/
def encodeInvitationBookRecord : Bytes → Except GroupOperationError Bytes :=
  encodeCheckpointRecord (ascii "TCGB")

/-- The checkpoint of a control outbox. -/
def encodeControlOutboxRecord : Bytes → Except GroupOperationError Bytes :=
  encodeCheckpointRecord (ascii "TCGO")

/-- The reader of `decodeCheckpointRecord`. -/
def readCheckpointRecord (tag : Bytes) : Reader GroupOperationError Bytes := do
  Reader.takeExact .policy tag
  let state ← Reader.takeLp .policy
  Reader.finish .policy
  pure state

/-- The state of a checkpoint record of a tag. -/
def decodeCheckpointRecord (tag record : Bytes) : Except GroupOperationError Bytes :=
  (readCheckpointRecord tag).run' record

/-- The byte of a roster refusal. -/
def rosterRefusalCode : RosterRefusal → UInt8
  | .wrongAuthority => 0
  | .wrongGroup => 1
  | .invalidGenesis => 2
  | .staleRevision => 3
  | .missingPredecessor => 4
  | .conflict => 5
  | .authorityTransfer => 6
  | .policyChange => 7
  | .reopened => 8
  | .missingAuthorityMember => 9
  | .invalidSource => 10

def rosterDispositionBytes : RosterDisposition → Bytes
  | .accepted => [0]
  | .duplicate => [1]
  | .rejected refusal => [2, rosterRefusalCode refusal]

/-- The record of a roster control. -/
def encodeRosterRecord (preimage : Bytes) (commitment : Digest) (disposition : RosterDisposition) :
    Except GroupOperationError Bytes := do
  let record ← policy (putLp (ascii "TCGC") preimage)
  pure (record ++ commitment.val ++ rosterDispositionBytes disposition)

/-- The record of an effect on the provider's state. -/
def encodeControlEffectRecord (effect : CryptoStateEffect) : Bytes := ascii "TCGE" ++ [effect.code]

/-- The checkpoint of the roster that an accepted transition replaced. -/
def encodeReplacedRosterRecord (groupId : GroupId) (preimage : Bytes) :
    Except GroupOperationError Bytes :=
  policy (putLp (ascii "TCGS" ++ groupId.bytes.val) preimage)

/-- The checkpoint of the newest revision that cancels older sends. -/
def encodeGroupOutboxCancellationRecord (groupId : GroupId) (revision : UInt64) : Bytes :=
  ascii "TCGX" ++ groupId.bytes.val ++ u64Bytes revision

/-- The newest cancellation after one more control record. -/
def collectCancellation (groupId : GroupId) (latest : Option UInt64) (record : Bytes) :
    Except GroupOperationError (Option UInt64) :=
  if hasTag (ascii "TCGX") record then do
    refuseIf (record.length ≠ 4 + groupIdLen + 8) .policy
    pure (if (record.drop 4).take groupIdLen = groupId.bytes.val then
        some (max (latest.getD 0) (ofBe (record.drop (4 + groupIdLen))).toUInt64)
      else latest)
  else pure latest

/-- The newest revision whose acceptance stopped the group's older sends. -/
def latestGroupOutboxCancellation (controls : List Bytes) (groupId : GroupId) :
    Except GroupOperationError (Option UInt64) :=
  controls.foldlM (collectCancellation groupId) none

end Tacenta.Client
