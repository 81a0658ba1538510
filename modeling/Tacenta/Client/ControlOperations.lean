import Tacenta.Client.ReceiveOperations

/-!
# Control handoffs

The authority's side of roster controls: the members of the roster that was replaced, who are still
to be told, the commits of the control outbox, and the authority's own transition with the
ciphertext of its first recipient. A store that accepts and forgets stands in where a commit is run
on copies.

## Main definitions

* `DiscardStore`: the store that accepts and forgets.
* `replacedRosterMembers`: the members of the replaced roster.
* `commitPreparedControlHandoff`, `commitAuthorityInvitationRevocationTransition`: commits of the
  control outbox.
* `authorityTransition`: the authority's transition.
-/

open ByteString Records Result Tacenta.Group

namespace Tacenta.Client

/-- A store that accepts and forgets. -/
inductive DiscardStore where
  | discard

instance : OperationStore DiscardStore where
  commit s _ := (s, .committed)
  recover s := (s, .ok none)

/-! ### The replaced roster -/

/-- The preimage that a checkpoint of the replaced roster holds after its scope. -/
def replacedPreimage (rest : Bytes) : Option Bytes := do
  guard (4 ≤ rest.length)
  let preimage := rest.drop 4
  guard (preimage.length = ofBe (rest.take 4))
  pure preimage

/-- The members of the roster that the accepted one replaced. -/
def replacedRosterMembers (commitments : Commitments) (snapshot : OperationSnapshot)
    (view : RosterView) : List Member :=
  let scope := ascii "TCGS" ++ view.roster.groupId.bytes.val
  match (latestCheckpoint snapshot.groupControls scope).bind fun record =>
    replacedPreimage (record.drop scope.length) with
  | none => []
  | some preimage =>
    if commitments.roster preimage ≠ view.roster.predecessorDigest then []
    else
      match Roster.decode preimage with
      | .ok roster => if roster.groupId = view.roster.groupId then roster.members else []
      | .error _ => []

/-! ### Commits of the control outbox -/

section Commits

variable {S α : Type} [OperationStore S] (commitments : Commitments)

/-- What `commitGroupControlOutboxTransition` publishes. -/
def controlOutboxTransitionPlan (transition : ControlOutbox → Except Error (ControlOutbox × α))
    (store : S) (snapshot : OperationSnapshot) (outbox : ControlOutbox) :
    Except GroupOperationError (Plan ControlOutbox α) := do
  let (outbox, answer) ← policy (transition outbox)
  let state ← policy (outbox.encodeState commitments.payload)
  let candidate ← beginCandidate store snapshot
  let record ← encodeControlOutboxRecord state
  pure (.publish { candidate with
    groupControls := appendGroupControlRecords candidate.groupControls [record] } outbox answer)

/-- Commit a change of the control outbox. -/
def commitGroupControlOutboxTransition
    (transition : ControlOutbox → Except Error (ControlOutbox × α)) :
    Effect (Ledger S ControlOutbox) GroupOperationError α :=
  Ledger.publish (controlOutboxTransitionPlan commitments transition)

/-- What `commitPreparedControlHandoff` publishes. -/
def preparedControlHandoffPlan (recipient : Member) (payload ciphertext providerState : Bytes)
    (store : S) (snapshot : OperationSnapshot) (outbox : ControlOutbox) :
    Except GroupOperationError (Plan ControlOutbox Handoff) := do
  let outbox ← policy (outbox.recordPrepared commitments.payload recipient payload ciphertext)
  let state ← policy (outbox.encodeState commitments.payload)
  let handoff ← policy (outbox.handoff commitments.payload recipient payload)
  let candidate ← beginCandidate store snapshot
  let record ← encodeControlOutboxRecord state
  pure (.publish { candidate with
    providerState
    groupControls := appendGroupControlRecords candidate.groupControls [record] } outbox handoff)

/-- Commit a recipient's exact ciphertext with the provider state that produced it. -/
def commitPreparedControlHandoff (recipient : Member) (payload ciphertext providerState : Bytes) :
    Effect (Ledger S ControlOutbox) GroupOperationError Handoff :=
  Ledger.publish (preparedControlHandoffPlan commitments recipient payload ciphertext providerState)

/-- What `commitAuthorityInvitationRevocationTransition` publishes. -/
def authorityInvitationRevocationPlan (authority : Member) (invitationId : InvitationId)
    (now : UInt64) (store : S) (snapshot : OperationSnapshot)
    (live : InvitationBook × ControlOutbox) :
    Except GroupOperationError (Plan (InvitationBook × ControlOutbox) Invitation) := do
  let (book, invitation) ← policy (discarding (live.1.revoke invitationId authority authority now))
  let outbox := live.2.cancelNonRevocationForRecipient invitation.target
  let bookState ← policy book.encodeState
  let outboxState ← policy (outbox.encodeState commitments.payload)
  let candidate ← beginCandidate store snapshot
  let bookRecord ← encodeInvitationBookRecord bookState
  let outboxRecord ← encodeControlOutboxRecord outboxState
  pure (.publish { candidate with
    groupControls := appendGroupControlRecords candidate.groupControls [bookRecord, outboxRecord] }
    (book, outbox) invitation)

/-- Commit the authority's revocation of an invitation with the cancellation of the controls that
were prepared for its target. -/
def commitAuthorityInvitationRevocationTransition (authority : Member)
    (invitationId : InvitationId) (now : UInt64) :
    Effect (Ledger S (InvitationBook × ControlOutbox)) GroupOperationError Invitation :=
  Ledger.publish (authorityInvitationRevocationPlan commitments authority invitationId now)

end Commits

/-- The authority's transition to a successor, with the ciphertext for its first recipient. -/
def authorityTransition (authenticatedAuthority recipient : Member) (successor : Roster)
    (payload ciphertext providerState : Bytes) (admission : Option InvitationAdmission) :
    RosterTransition where
  authenticatedAuthority := authenticatedAuthority
  candidate := successor
  provider := some (providerState, .advanced)
  preparedControl := some ⟨recipient, payload, ciphertext⟩
  admission := admission
  applying := none

end Tacenta.Client
