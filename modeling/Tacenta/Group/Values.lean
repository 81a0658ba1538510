import Tacenta.Library.Reader

/-!
# Canonical values of the bounded group profile

The values of the group crate: members, rosters and application contexts, with the checks that
admit them and their byte formats. A roster is the preimage of a digest that later revisions
carry; an application context is the authenticated plaintext around one group message.

## Main definitions

* `Member`, `Roster`, `ApplicationContext`: the values.
* `Roster.validate`, `ApplicationContext.validate`: the profile's checks, in the order in which
  faults are reported.
* `Roster.encode`, `Roster.decode`, `ApplicationContext.encode`, `ApplicationContext.decode`: the
  byte formats.
-/

open ByteString Result

namespace Tacenta.Group

/-! ### Bounds of the profile -/

/-- Length of a group id. -/
def groupIdLen : Nat := 16

/-- Length of a roster or context commitment. -/
def digestLen : Nat := 32

/-- Largest number of members of a roster. -/
def maxMembers : Nat := 8

/-- Largest application payload. -/
def maxPayloadLen : Nat := 1024

/-- Largest identity of a member. -/
def maxIdentityLen : Nat := 256

/-- Largest device of a member. -/
def maxDeviceLen : Nat := 64

/-- Largest encoded roster. -/
def maxRosterLen : Nat := 4096

/-- Largest encoded application context. -/
def maxApplicationContextLen : Nat := 2048

/-- Largest number of unfinished logical sends of a group. -/
def maxLiveLogicalSends : Nat := 8

/-- The policy version of the bounded profile. -/
def policyVersionV1 : UInt32 := 1

/-- The revision that no roster has. -/
def reservedRevision : UInt64 := 0xFFFFFFFFFFFFFFFF

def rosterDomain : Bytes := ascii "Tacenta Group Roster v1"

/-- Domain of an application context's bytes. -/
def applicationDomain : Bytes := ascii "Tacenta Group Application v1"

/-- A parsing fault or a violation of the profile's bounds. -/
inductive Error where
  | malformed
  | nonCanonical
  | unsupportedPolicy
  | reservedRevision
  | invalidGenesis
  | tooManyMembers
  | payloadTooLarge
  | identityTooLarge
  | deviceTooLarge
  | rosterTooLarge
  | contextTooLarge
  | unauthorized
  | conflict
  | wrongTarget
  | staleSource
  | expired
  | revoked
  | wrongDisposition
  | emptyRecipients
  | notMember
  | closed
  | retryExhausted
  | outboxFull
  | staleRevision
  | sequenceOrder
  | sequenceExhausted
  deriving DecidableEq

/-- A commitment to a roster or to an application context. -/
abbrev Digest := FixedBytes digestLen

/-- An opaque group identifier. -/
structure GroupId where
  /-- The identifier's bytes. -/
  bytes : FixedBytes groupIdLen
  deriving DecidableEq

/-- A group id from bytes of the right length. -/
def GroupId.tryFrom (b : Bytes) : Except Error GroupId :=
  GroupId.mk <$> Reader.exactly .malformed groupIdLen b

/-! ### Byte-level helpers -/

/-- Append a count in four bytes. -/
def putU32 (out : Bytes) (value : Nat) : Except Error Bytes := do
  refuseIf (2 ^ 32 ≤ value) .malformed
  pure (out ++ u32Bytes value.toUInt32)

/-- Append a byte string after its length. -/
def putLp (out value : Bytes) : Except Error Bytes := do
  let out ← putU32 out value.length
  pure (out ++ value)

/-- Length of a byte string after its length. -/
def lpLen (valueLen : Nat) : Nat := 4 + valueLen

/-! ### Members -/

/-- An identity and device binding. -/
structure Member where
  /-- Canonical identity bytes. -/
  identity : Bytes
  /-- Canonical device bytes. -/
  device : Bytes
  deriving DecidableEq

namespace Member

/-- The canonical order: the identity bytes, then the device bytes. -/
def canonicalCmp (a b : Member) : Ordering :=
  (compare a.identity b.identity).then (compare a.device b.device)

/-- The profile's bounds on one member. -/
def validate (m : Member) : Except Error Unit := do
  refuseIf (maxIdentityLen < m.identity.length) .identityTooLarge
  refuseIf (maxDeviceLen < m.device.length) .deviceTooLarge

end Member

/-- Length of an encoded member. -/
def memberLen (m : Member) : Nat := lpLen m.identity.length + lpLen m.device.length

/-- Append an encoded member. -/
def putMember (out : Bytes) (m : Member) : Except Error Bytes := do
  let out ← putLp out m.identity
  putLp out m.device

/-- Take one member within the profile's bounds. -/
def takeMember : Reader Error Member := do
  let identity ← Reader.takeLp .malformed
  let device ← Reader.takeLp .malformed
  let member : Member := ⟨identity, device⟩
  member.validate
  pure member

/-- The loop over members that must be in canonical order and of distinct identities: every member
passes its own check, is above the member before it and is of an identity not seen before. -/
def checkMembers (check : Member → Except Error Unit) :
    Option Member → List Bytes → List Member → Except Error Unit
  | _, _, [] => pure ()
  | previous, identities, m :: ms => do
    check m
    refuseIf (previous.any fun p => p.canonicalCmp m != .lt) .nonCanonical
    refuseIf (m.identity ∈ identities) .nonCanonical
    checkMembers check (some m) (m.identity :: identities) ms

/-! ### Rosters -/

/-- A roster: one revision of a group's membership. -/
structure Roster where
  groupId : GroupId
  /-- The revision; a successor has the next one. -/
  revision : UInt64
  /-- Digest of the roster of the preceding revision. -/
  predecessorDigest : Digest
  /-- The member that signs the group's transitions. -/
  authority : Member
  policyVersion : UInt32
  /-- Whether the group is closed. -/
  closed : Bool
  /-- The members, in canonical order. -/
  members : List Member
  deriving DecidableEq

namespace Roster

/-- Length of the encoded roster. -/
def encodedLen (r : Roster) : Nat :=
  rosterDomain.length + lpLen groupIdLen + 8 + lpLen digestLen + memberLen r.authority + 4 + 1 + 4
    + (r.members.map memberLen).sum

/-- The profile's checks of a roster. -/
def validate (r : Roster) : Except Error Unit := do
  refuseIf (r.revision = Group.reservedRevision) .reservedRevision
  refuseIf (r.policyVersion ≠ policyVersionV1) .unsupportedPolicy
  refuseIf (r.revision = 0 ∧ (r.predecessorDigest ≠ FixedBytes.replicate digestLen 0
    ∨ r.closed ∨ r.members ≠ [r.authority])) .invalidGenesis
  refuseIf (maxMembers < r.members.length) .tooManyMembers
  r.authority.validate
  checkMembers Member.validate none [] r.members
  refuseIf (maxRosterLen < r.encodedLen) .rosterTooLarge

/-- A roster that passes the profile's checks. -/
def new (groupId : GroupId) (revision : UInt64) (predecessorDigest : Digest) (authority : Member)
    (policyVersion : UInt32) (closed : Bool) (members : List Member) : Except Error Roster := do
  let roster : Roster :=
    { groupId, revision, predecessorDigest, authority, policyVersion, closed, members }
  roster.validate
  pure roster

/-- The preimage whose digest later revisions carry. -/
def encode (r : Roster) : Except Error Bytes := do
  r.validate
  let out := rosterDomain
  let out ← putLp out r.groupId.bytes.val
  let out := out ++ u64Bytes r.revision
  let out ← putLp out r.predecessorDigest.val
  let out ← putMember out r.authority
  let out := out ++ u32Bytes r.policyVersion
  let out := out ++ [r.closed.toUInt8]
  let out ← putU32 out r.members.length
  r.members.foldlM putMember out

/-- Take a byte that is a truth value. -/
def takeClosed : Reader Error Bool := do
  match ← Reader.takeByte Error.malformed with
  | 0 => pure false
  | 1 => pure true
  | _ => throw .malformed

/-- The reader of `decode`. -/
def read : Reader Error Roster := do
  Reader.takeExact .malformed rosterDomain
  let groupId ← GroupId.tryFrom (← Reader.takeLp .malformed)
  let revision ← Reader.takeU64 .malformed
  let predecessorDigest ← Reader.exactly Error.malformed digestLen (← Reader.takeLp .malformed)
  let authority ← takeMember
  let policyVersion ← Reader.takeU32 .malformed
  let closed ← takeClosed
  let count ← Reader.takeU32 .malformed
  refuseIf (maxMembers < count.toNat) Error.tooManyMembers
  let members ← Reader.many takeMember count.toNat
  Reader.finish .malformed
  new groupId revision predecessorDigest authority policyVersion closed members

/-- Decode an exact, canonical roster preimage. -/
def decode (bytes : Bytes) : Except Error Roster := do
  refuseIf (maxRosterLen < bytes.length) .rosterTooLarge
  read.run' bytes

end Roster

/-! ### Application contexts -/

/-- The authenticated plaintext context of one application message. -/
structure ApplicationContext where
  groupId : GroupId
  /-- The roster revision the message was sent at. -/
  revision : UInt64
  rosterDigest : Digest
  /-- The sending member. -/
  sender : Member
  /-- The member the message is for. -/
  recipient : Member
  /-- The sender's sequence number. -/
  logicalSequence : UInt64
  /-- The application's bytes. -/
  payload : Bytes
  deriving DecidableEq

namespace ApplicationContext

/-- Length of the encoded context. -/
def encodedLen (c : ApplicationContext) : Nat :=
  applicationDomain.length + lpLen groupIdLen + 8 + lpLen digestLen + memberLen c.sender
    + memberLen c.recipient + 8 + lpLen c.payload.length

/-- The profile's checks of a context. -/
def validate (c : ApplicationContext) : Except Error Unit := do
  refuseIf (c.revision = Group.reservedRevision) .reservedRevision
  refuseIf (maxPayloadLen < c.payload.length) .payloadTooLarge
  c.sender.validate
  c.recipient.validate
  refuseIf (maxApplicationContextLen < c.encodedLen) .contextTooLarge

/-- A context that passes the profile's checks. -/
def new (groupId : GroupId) (revision : UInt64) (rosterDigest : Digest) (sender recipient : Member)
    (logicalSequence : UInt64) (payload : Bytes) : Except Error ApplicationContext := do
  let context : ApplicationContext :=
    { groupId, revision, rosterDigest, sender, recipient, logicalSequence, payload }
  context.validate
  pure context

def encode (c : ApplicationContext) : Except Error Bytes := do
  c.validate
  let out := applicationDomain
  let out ← putLp out c.groupId.bytes.val
  let out := out ++ u64Bytes c.revision
  let out ← putLp out c.rosterDigest.val
  let out ← putMember out c.sender
  let out ← putMember out c.recipient
  let out := out ++ u64Bytes c.logicalSequence
  putLp out c.payload

/-- The reader of `decode`. -/
def read : Reader Error ApplicationContext := do
  Reader.takeExact .malformed applicationDomain
  let groupId ← GroupId.tryFrom (← Reader.takeLp .malformed)
  let revision ← Reader.takeU64 .malformed
  let rosterDigest ← Reader.exactly Error.malformed digestLen (← Reader.takeLp .malformed)
  let sender ← takeMember
  let recipient ← takeMember
  let logicalSequence ← Reader.takeU64 .malformed
  let payload ← Reader.takeLp .malformed
  Reader.finish .malformed
  new groupId revision rosterDigest sender recipient logicalSequence payload

/-- Decode an exact, canonical context. -/
def decode (bytes : Bytes) : Except Error ApplicationContext := do
  refuseIf (maxApplicationContextLen < bytes.length) .contextTooLarge
  read.run' bytes

end ApplicationContext

end Tacenta.Group
