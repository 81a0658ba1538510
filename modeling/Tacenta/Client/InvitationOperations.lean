import Tacenta.Client.ReceiveOperations

/-!
# Invitation commits

A change of the invitation book is published with its checkpoint, and with the provider state that
consumed the message if the change was received. A received message that fails its checks is
committed as a refused item, and the caller is told that it was refused.

## Main definitions

* `commitGroupInvitationTransition`: a local change of the book.
* `commitGroupInvitationBootstrap`, `commitGroupInvitationAcceptance`,
  `commitGroupInvitationRevocation`: received messages.
-/

open ByteString Records Result Tacenta.Group

namespace Tacenta.Client

variable {S : Type} [OperationStore S] (commitments : Commitments)

/-- What a change of the invitation book publishes. -/
def invitationTransitionPlan {α : Type} (provider : Option (Bytes × CryptoStateEffect))
    (transition : InvitationBook → InvitationBook × Except Error α) (store : S)
    (snapshot : OperationSnapshot) (book : InvitationBook) :
    Except GroupOperationError (Plan InvitationBook α) := do
  let (book, answer) ← policy (discarding (transition book))
  let state ← policy book.encodeState
  let candidate ← beginCandidate store snapshot
  let record ← encodeInvitationBookRecord state
  let effect := provider.toList.map fun provider => encodeControlEffectRecord provider.2
  pure (.publish { candidate with
    providerState := (provider.map Prod.fst).getD candidate.providerState
    groupControls := appendGroupControlRecords candidate.groupControls ([record] ++ effect) }
    book answer)

/-- Commit a change of the invitation book with the provider state that consumed its message. -/
def commitGroupInvitationTransitionWithProvider {α : Type}
    (provider : Option (Bytes × CryptoStateEffect))
    (transition : InvitationBook → InvitationBook × Except Error α) :
    Effect (Ledger S InvitationBook) GroupOperationError α :=
  Ledger.publish (invitationTransitionPlan provider transition)

/-- Commit a change of the invitation book. -/
def commitGroupInvitationTransition {α : Type}
    (transition : InvitationBook → InvitationBook × Except Error α) :
    Effect (Ledger S InvitationBook) GroupOperationError α :=
  commitGroupInvitationTransitionWithProvider none transition

/-- Commit a received message as a refused item and report the refusal. -/
def commitInvalidInvitationControl {α : Type} (input : GroupReceiveInput) :
    Effect (Ledger S InvitationBook) GroupOperationError α := do
  refuseInput commitments input
  Effect.fail .policy

/-- Commit a received change of the book; one that the book refuses is a refused item. -/
def commitReceivedInvitation {α : Type} (input : GroupReceiveInput)
    (transition : InvitationBook → InvitationBook × Except Error α) :
    Effect (Ledger S InvitationBook) GroupOperationError α := do
  let result ← (commitGroupInvitationTransitionWithProvider
    (some (input.providerState, input.providerEffect)) transition).attempt
  match result with
  | .ok answer => pure answer
  | .error .policy => commitInvalidInvitationControl commitments input
  | .error .frozen => Effect.fail .frozen

/-- Whether a bootstrap fails its checks. -/
def bootstrapRefused (localMember authenticatedPeer : Member) (bootstrap : InvitationBootstrap)
    (sourceDigest : Digest) : Bool :=
  !(bootstrap.validateSourceDigest sourceDigest).isOk || bootstrap.sourceRoster.closed ||
    decide (bootstrap.sourceRoster.authority ≠ authenticatedPeer) ||
      decide (bootstrap.invitation.target ≠ localMember)

/-- Commit a received bootstrap. -/
def commitGroupInvitationBootstrap (localMember : Member) (now : UInt64)
    (input : GroupReceiveInput) :
    Effect (Ledger S InvitationBook) GroupOperationError InvitationBootstrap :=
  match GroupPayload.decode input.plaintext with
  | .ok (.invitationBootstrap bootstrap) => do
    let preimage ← Effect.lift (policy bootstrap.sourceRoster.encode)
    if bootstrapRefused localMember input.authenticatedPeer bootstrap
        (commitments.roster preimage) then
      commitInvalidInvitationControl commitments input
    else
      commitReceivedInvitation commitments input fun book =>
        let (book, created) := book.create input.authenticatedPeer bootstrap.sourceRoster.authority
          bootstrap.sourceRoster.members bootstrap.invitation now
        (book, created.map fun _ => bootstrap)
  | _ => commitInvalidInvitationControl commitments input

/-- Commit a received acceptance. -/
def commitGroupInvitationAcceptance (now : UInt64) (input : GroupReceiveInput) :
    Effect (Ledger S InvitationBook) GroupOperationError InvitationStatus :=
  match GroupPayload.decode input.plaintext with
  | .ok (.invitationAcceptance acceptance) => do
    let l ← Effect.get
    if acceptance.groupId ≠ l.live.groupId then commitInvalidInvitationControl commitments input
    else
      commitReceivedInvitation commitments input fun book =>
        let (book, accepted) := book.accept acceptance.invitationId input.authenticatedPeer
          acceptance.sourceRevision acceptance.sourceRosterDigest now
        (book, accepted.map Invitation.status)
  | _ => commitInvalidInvitationControl commitments input

/-- Whether a revocation names a recorded invitation to the local member. -/
def revocationMatches (book : InvitationBook) (localTarget : Member)
    (revocation : InvitationRevocation) : Bool :=
  book.invitations.any fun record => record.id = revocation.invitationId
    ∧ record.groupId = revocation.groupId ∧ record.target = localTarget
    ∧ record.sourceRevision = revocation.sourceRevision
    ∧ record.sourceRosterDigest = revocation.sourceRosterDigest

/-- Commit a received revocation. -/
def commitGroupInvitationRevocation (localTarget sourceAuthority : Member) (now : UInt64)
    (input : GroupReceiveInput) :
    Effect (Ledger S InvitationBook) GroupOperationError InvitationStatus :=
  match GroupPayload.decode input.plaintext with
  | .ok (.invitationRevocation revocation) => do
    let l ← Effect.get
    if revocation.groupId ≠ l.live.groupId ∨ input.authenticatedPeer ≠ sourceAuthority
        ∨ ¬revocationMatches l.live localTarget revocation then
      commitInvalidInvitationControl commitments input
    else
      commitReceivedInvitation commitments input fun book =>
        let (book, revoked) := book.revoke revocation.invitationId sourceAuthority sourceAuthority
          now
        (book, revoked.map Invitation.status)
  | _ => commitInvalidInvitationControl commitments input

end Tacenta.Client
