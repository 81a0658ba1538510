import Mathlib.Data.List.Sort
import Tacenta.Group.Codec
import Tacenta.Library.Records

/-!
# Invitations

The lifecycle of the invitations of one group: an authority creates an invitation, its target
accepts it, and the authority revokes it or admits the target with a later roster. An invitation
that is due expires when it is next looked at, also by a call that is then refused.

## Main definitions

* `Invitation`, `InvitationStatus`: an invitation and its state.
* `InvitationBook`: the invitations of a group, with `create`, `accept`, `revoke`, `admit_` and the
  checkpoint `encodeState`, `decodeState`.
* `InvitationBootstrap`, `InvitationAcceptance`, `InvitationRevocation`: the messages about one
  invitation, with their byte formats.
-/

open ByteString Records Result

namespace Tacenta.Group

/-- Domain of a book's checkpoint. -/
def invitationBookStateDomain : Bytes := ascii "Tacenta Group Invitation Book State v1"

def invitationBootstrapDomain : Bytes := ascii "Tacenta Group Invitation Bootstrap v1"

def invitationAcceptanceDomain : Bytes := ascii "Tacenta Group Invitation Acceptance v1"

def invitationRevocationDomain : Bytes := ascii "Tacenta Group Invitation Revocation v1"

/-- Largest number of invitations in a book. -/
def maxInvitationRecords : Nat := 32

/-- Append a byte string after its length in two bytes. -/
def putLp16 (out value : Bytes) : Except Error Bytes := do
  refuseIf (2 ^ 16 ≤ value.length) .malformed
  pure (out ++ u16Bytes value.length.toUInt16 ++ value)

/-- An opaque invitation identifier. -/
structure InvitationId where
  /-- The identifier's bytes. -/
  bytes : FixedBytes 16
  deriving DecidableEq

/-- Take an invitation identifier. -/
def takeInvitationId : Reader Error InvitationId :=
  InvitationId.mk <$> Reader.takeArray .malformed 16

/-- Take a group identifier without its length. -/
def takeGroupId : Reader Error GroupId := GroupId.mk <$> Reader.takeArray .malformed groupIdLen

/-- The lifecycle of an invitation. -/
inductive InvitationStatus where
  | pending
  | acceptedPendingAdmission
  | admitted (revision : UInt64)
  | revoked
  | expired
  deriving DecidableEq

/-- The code of a status, and the revision that follows it. -/
def statusCode : InvitationStatus → UInt8 × Option UInt64
  | .pending => (0, none)
  | .acceptedPendingAdmission => (1, none)
  | .admitted revision => (2, some revision)
  | .revoked => (3, none)
  | .expired => (4, none)

/-- An invitation and where it stands. -/
structure Invitation where
  /-- Its identifier. -/
  id : InvitationId
  groupId : GroupId
  /-- The invited member. -/
  target : Member
  /-- The roster revision it was issued at. -/
  sourceRevision : UInt64
  sourceRosterDigest : Digest
  policyVersion : UInt32
  /-- When it expires. -/
  expiresAt : UInt64
  /-- Where it stands. -/
  status : InvitationStatus
  deriving DecidableEq

namespace Invitation

/-- The profile's checks of an invitation's fields. -/
def validate (i : Invitation) : Except Error Unit := do
  refuseIf (i.sourceRevision = Group.reservedRevision) .reservedRevision
  refuseIf (i.policyVersion ≠ policyVersionV1) .unsupportedPolicy
  i.target.validate

/-- A pending invitation that passes the checks. -/
def new (id : InvitationId) (groupId : GroupId) (target : Member) (sourceRevision : UInt64)
    (sourceRosterDigest : Digest) (policyVersion : UInt32) (expiresAt : UInt64) :
    Except Error Invitation := do
  let invitation : Invitation := ⟨id, groupId, target, sourceRevision, sourceRosterDigest,
    policyVersion, expiresAt, .pending⟩
  invitation.validate
  pure invitation

/-- Whether two invitations differ at most in where they stand. -/
def sameImmutableFields (i candidate : Invitation) : Bool :=
  { i with status := .pending } = { candidate with status := .pending }

/-- Whether the invitation was issued at the roster. -/
def sourceMatches (i : Invitation) (revision : UInt64) (digest : Digest) : Bool :=
  i.sourceRevision = revision ∧ i.sourceRosterDigest = digest

/-- Expire an open invitation that is due. -/
def expireIfDue (i : Invitation) (now : UInt64) : Invitation :=
  if i.expiresAt ≤ now ∧ (i.status = .pending ∨ i.status = .acceptedPendingAdmission) then
    { i with status := .expired }
  else i

/-- The target's acceptance. -/
def accept (authenticatedTarget : Member) (observedRevision : UInt64)
    (observedRosterDigest : Digest) (now : UInt64) (i : Invitation) :
    Invitation × Except Error Invitation :=
  if authenticatedTarget ≠ i.target then (i, .error .wrongTarget)
  else if !i.sourceMatches observedRevision observedRosterDigest then (i, .error .staleSource)
  else
    let i := i.expireIfDue now
    match i.status with
    | .pending =>
      let i := { i with status := .acceptedPendingAdmission }
      (i, .ok i)
    | .acceptedPendingAdmission | .admitted _ => (i, .ok i)
    | .revoked => (i, .error .revoked)
    | .expired => (i, .error .expired)

/-- The authority's revocation. -/
def revoke (now : UInt64) (i : Invitation) : Invitation × Except Error Invitation :=
  let i := i.expireIfDue now
  match i.status with
  | .pending | .acceptedPendingAdmission =>
    let i := { i with status := .revoked }
    (i, .ok i)
  | .revoked => (i, .ok i)
  | .expired => (i, .error .expired)
  | .admitted _ => (i, .error .wrongDisposition)

/-- The authority's admission with a later roster: `admit` of the source, which is a keyword
here. -/
def admit_ (acceptedRevision : UInt64) (now : UInt64) (i : Invitation) :
    Invitation × Except Error Invitation :=
  let i := i.expireIfDue now
  match i.status with
  | .acceptedPendingAdmission =>
    if acceptedRevision ≤ i.sourceRevision then (i, .error .staleSource)
    else
      let i := { i with status := .admitted acceptedRevision }
      (i, .ok i)
  | .admitted revision =>
    if revision = acceptedRevision then (i, .ok i) else (i, .error .conflict)
  | .pending => (i, .error .wrongDisposition)
  | .revoked => (i, .error .revoked)
  | .expired => (i, .error .expired)

end Invitation

/-! ### The book -/

/-- The invitations of one group. -/
structure InvitationBook where
  groupId : GroupId
  /-- The invitations, in the order in which they were created. -/
  invitations : List Invitation
  deriving DecidableEq

namespace InvitationBook

/-- A book without invitations. -/
def new (groupId : GroupId) : InvitationBook := ⟨groupId, []⟩

/-- Record a pending invitation; an exact retry finds the recorded one. -/
def create (b : InvitationBook) (authenticatedAuthority authority : Member)
    (activeMembers : List Member) (invitation : Invitation) (now : UInt64) :
    InvitationBook × Except Error Invitation :=
  if authenticatedAuthority ≠ authority then (b, .error .unauthorized)
  else if invitation.groupId ≠ b.groupId then (b, .error .conflict)
  else if invitation.expiresAt ≤ now then (b, .error .expired)
  else if activeMembers.any fun m => m.identity = invitation.target.identity then
    (b, .error .conflict)
  else
    match b.invitations.find? fun existing => existing.id = invitation.id with
    | some existing =>
      if existing.sameImmutableFields invitation then (b, .ok existing) else (b, .error .conflict)
    | none =>
      if maxMembers ≤ activeMembers.length then (b, .error .tooManyMembers)
      else if b.invitations.length = maxInvitationRecords then (b, .error .outboxFull)
      else ({ b with invitations := b.invitations ++ [invitation] }, .ok invitation)

/-- Apply a method to the invitation with an identifier. -/
def findMut (b : InvitationBook) (id : InvitationId)
    (method : Invitation → Invitation × Except Error Invitation) :
    InvitationBook × Except Error Invitation :=
  match updateFirst (fun i => i.id = id) Error.malformed (fun i => .ok (method i))
    b.invitations with
  | .ok (invitations, answer) => ({ b with invitations }, answer)
  | .error e => (b, .error e)

/-- Record the target's acceptance. -/
def accept (b : InvitationBook) (id : InvitationId) (authenticatedTarget : Member)
    (observedRevision : UInt64) (observedRosterDigest : Digest) (now : UInt64) :
    InvitationBook × Except Error Invitation :=
  b.findMut id (Invitation.accept authenticatedTarget observedRevision observedRosterDigest now)

/-- Record the authority's revocation. -/
def revoke (b : InvitationBook) (id : InvitationId) (authenticatedAuthority authority : Member)
    (now : UInt64) : InvitationBook × Except Error Invitation :=
  if authenticatedAuthority ≠ authority then (b, .error .unauthorized)
  else b.findMut id (Invitation.revoke now)

/-- Record the authority's admission: `admit` of the source. -/
def admit_ (b : InvitationBook) (id : InvitationId) (authenticatedAuthority authority : Member)
    (acceptedRevision : UInt64) (now : UInt64) : InvitationBook × Except Error Invitation :=
  if authenticatedAuthority ≠ authority then (b, .error .unauthorized)
  else if acceptedRevision = Group.reservedRevision then (b, .error .reservedRevision)
  else b.findMut id (Invitation.admit_ acceptedRevision now)

/-- Append one invitation of a checkpoint. -/
def putInvitation (out : Bytes) (i : Invitation) : Except Error Bytes := do
  let (status, admittedRevision) := statusCode i.status
  refuseIf (admittedRevision = some Group.reservedRevision) .reservedRevision
  i.validate
  let out := out ++ i.id.bytes.val
  let out ← putLp16 out i.target.identity
  let out ← putLp16 out i.target.device
  let out := out ++ u64Bytes i.sourceRevision ++ i.sourceRosterDigest.val
    ++ u32Bytes i.policyVersion ++ u64Bytes i.expiresAt ++ [status]
  pure (match admittedRevision with
    | some revision => out ++ u64Bytes revision
    | none => out)

/-- The book's checkpoint: the invitations in the order of their identifiers. -/
def encodeState (b : InvitationBook) : Except Error Bytes := do
  refuseIf (2 ^ 8 ≤ b.invitations.length) .malformed
  refuseIf (maxInvitationRecords < b.invitations.length) .malformed
  let sorted := b.invitations.insertionSort fun left right =>
    (compare left.id.bytes.val right.id.bytes.val).isLE
  sorted.foldlM putInvitation (invitationBookStateDomain ++ b.groupId.bytes.val
    ++ [b.invitations.length.toUInt8])

/-- Take a status with the revision that follows it. -/
def takeStatus : Reader Error InvitationStatus := do
  match ← Reader.takeByte Error.malformed with
  | 0 => pure .pending
  | 1 => pure .acceptedPendingAdmission
  | 2 =>
    let revision ← Reader.takeU64 .malformed
    refuseIf (revision = Group.reservedRevision) Error.reservedRevision
    pure (.admitted revision)
  | 3 => pure .revoked
  | 4 => pure .expired
  | _ => throw .malformed

/-- Take one invitation after those taken before it. -/
def takeInvitation (groupId : GroupId) (taken : List Invitation) :
    Reader Error (List Invitation) := do
  let id ← takeInvitationId
  refuseIf (taken.getLast?.any fun previous =>
    (compare previous.id.bytes.val id.bytes.val).isGE) Error.nonCanonical
  let identity ← Reader.takeLp16 .malformed
  let device ← Reader.takeLp16 .malformed
  let sourceRevision ← Reader.takeU64 .malformed
  let sourceRosterDigest ← Reader.takeArray .malformed digestLen
  let policyVersion ← Reader.takeU32 .malformed
  let expiresAt ← Reader.takeU64 .malformed
  let status ← takeStatus
  let invitation ← Invitation.new id groupId ⟨identity, device⟩ sourceRevision sourceRosterDigest
    policyVersion expiresAt
  pure (taken ++ [{ invitation with status }])

/-- The reader of `decodeState`. -/
def readState (expectedGroupId : GroupId) : Reader Error InvitationBook := do
  Reader.takeExact .malformed invitationBookStateDomain
  let groupId ← takeGroupId
  refuseIf (groupId ≠ expectedGroupId) Error.conflict
  let count ← Reader.takeByte .malformed
  refuseIf (maxInvitationRecords < count.toNat) Error.malformed
  let invitations ← Reader.loop (takeInvitation expectedGroupId) count.toNat []
  Reader.finish .malformed
  pure ⟨expectedGroupId, invitations⟩

/-- Restore a canonical checkpoint of the group. -/
def decodeState (bytes : Bytes) (expectedGroupId : GroupId) : Except Error InvitationBook :=
  (readState expectedGroupId).run' bytes

end InvitationBook

/-! ### Messages -/

/-- An invitation with the roster it was issued at. -/
structure InvitationBootstrap where
  invitation : Invitation
  sourceRoster : Roster
  deriving DecidableEq

namespace InvitationBootstrap

/-- The invitation is pending and of the roster's group, revision and policy. -/
def checkBinding (invitation : Invitation) (sourceRoster : Roster) : Except Error Unit :=
  refuseIf (invitation.status ≠ .pending ∨ invitation.groupId ≠ sourceRoster.groupId
    ∨ invitation.sourceRevision ≠ sourceRoster.revision
    ∨ invitation.policyVersion ≠ sourceRoster.policyVersion) .conflict

/-- A bootstrap of an invitation that fits its roster. -/
def new (invitation : Invitation) (sourceRoster : Roster) : Except Error InvitationBootstrap := do
  checkBinding invitation sourceRoster
  let _ ← sourceRoster.encode
  pure ⟨invitation, sourceRoster⟩

/-- The invitation names the digest of its roster. -/
def validateSourceDigest (b : InvitationBootstrap) (sourceDigest : Digest) : Except Error Unit :=
  refuseIf (sourceDigest ≠ b.invitation.sourceRosterDigest) .staleSource

def encode (b : InvitationBootstrap) : Except Error Bytes := do
  let roster ← b.sourceRoster.encode
  b.invitation.validate
  checkBinding b.invitation b.sourceRoster
  let out := invitationBootstrapDomain ++ b.invitation.id.bytes.val
    ++ b.invitation.groupId.bytes.val
  let out ← putLp16 out b.invitation.target.identity
  let out ← putLp16 out b.invitation.target.device
  let out := out ++ u64Bytes b.invitation.sourceRevision ++ b.invitation.sourceRosterDigest.val
    ++ u32Bytes b.invitation.policyVersion ++ u64Bytes b.invitation.expiresAt
  putLp out roster

/-- The reader of `decode`. -/
def read : Reader Error InvitationBootstrap := do
  Reader.takeExact .malformed invitationBootstrapDomain
  let id ← takeInvitationId
  let groupId ← takeGroupId
  let identity ← Reader.takeLp16 .malformed
  let device ← Reader.takeLp16 .malformed
  let sourceRevision ← Reader.takeU64 .malformed
  let sourceRosterDigest ← Reader.takeArray .malformed digestLen
  let policyVersion ← Reader.takeU32 .malformed
  let expiresAt ← Reader.takeU64 .malformed
  let roster ← Roster.decode (← Reader.takeLp .malformed)
  Reader.finish .malformed
  let invitation ← Invitation.new id groupId ⟨identity, device⟩ sourceRevision sourceRosterDigest
    policyVersion expiresAt
  new invitation roster

/-- Decode an exact, canonical bootstrap. -/
def decode (bytes : Bytes) : Except Error InvitationBootstrap := read.run' bytes

end InvitationBootstrap

/-- A message that names an invitation and the roster it was issued at. -/
structure InvitationNotice where
  groupId : GroupId
  invitationId : InvitationId
  /-- The roster revision it was issued at. -/
  sourceRevision : UInt64
  sourceRosterDigest : Digest
  deriving DecidableEq

namespace InvitationNotice

/-- A notice of a revision that a roster can have. -/
def new (groupId : GroupId) (invitationId : InvitationId) (sourceRevision : UInt64)
    (sourceRosterDigest : Digest) : Except Error InvitationNotice := do
  refuseIf (sourceRevision = Group.reservedRevision) .reservedRevision
  pure ⟨groupId, invitationId, sourceRevision, sourceRosterDigest⟩

/-- The bytes of a notice under a domain. -/
def encode (domain : Bytes) (n : InvitationNotice) : Except Error Bytes := do
  let canonical ← new n.groupId n.invitationId n.sourceRevision n.sourceRosterDigest
  pure (domain ++ canonical.groupId.bytes.val ++ canonical.invitationId.bytes.val
    ++ u64Bytes canonical.sourceRevision ++ canonical.sourceRosterDigest.val)

/-- The reader of `decode`. -/
def read (domain : Bytes) : Reader Error InvitationNotice := do
  Reader.takeExact .malformed domain
  let groupId ← takeGroupId
  let invitationId ← takeInvitationId
  let sourceRevision ← Reader.takeU64 .malformed
  let sourceRosterDigest ← Reader.takeArray .malformed digestLen
  Reader.finish .malformed
  new groupId invitationId sourceRevision sourceRosterDigest

/-- Decode an exact, canonical notice of a domain. -/
def decode (domain bytes : Bytes) : Except Error InvitationNotice := (read domain).run' bytes

end InvitationNotice

/-- The target's acknowledgement of an invitation. -/
abbrev InvitationAcceptance := InvitationNotice

/-- The authority's revocation of an invitation. -/
abbrev InvitationRevocation := InvitationNotice

def InvitationAcceptance.encode (a : InvitationAcceptance) : Except Error Bytes :=
  InvitationNotice.encode invitationAcceptanceDomain a

/-- Decode an exact, canonical acceptance. -/
def InvitationAcceptance.decode (bytes : Bytes) : Except Error InvitationAcceptance :=
  InvitationNotice.decode invitationAcceptanceDomain bytes

def InvitationRevocation.encode (r : InvitationRevocation) : Except Error Bytes :=
  InvitationNotice.encode invitationRevocationDomain r

/-- Decode an exact, canonical revocation. -/
def InvitationRevocation.decode (bytes : Bytes) : Except Error InvitationRevocation :=
  InvitationNotice.decode invitationRevocationDomain bytes

end Tacenta.Group
