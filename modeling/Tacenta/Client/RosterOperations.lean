import Tacenta.Client.OutboxOperations

/-!
# Roster transitions

The commit that judges a roster control, with everything that an accepted successor changes in the
same snapshot: the view, the receiver and its deferred contexts, the sends that it stops, the held
controls that it passes, and for an authority the prepared control and the admission of an invitee.

## Main definitions

* `RosterCommitState`: the live values of a transition; the caller supplies the optional ones.
* `commitRosterTransition`, `commitHoldRosterWithoutView`, `commitNextDeferredRoster`,
  `commitPruneDeferredRosters`.
* `recoverGroupReceiver`, `recoverGroupRosterView`, `recoverGroupInvitationBook`,
  `recoverGroupControlOutbox`, `recoverGroupDeferredRosters`: recovery from a snapshot.
-/

open ByteString Records Result Tacenta.Group

namespace Tacenta.Client

/-- The commitments that the core computes. -/
structure Commitments where
  /-- The commitment of a payload. -/
  payload : Bytes → Digest
  /-- The commitment of a roster's preimage. -/
  roster : Bytes → Digest

/-- Commitments that separate byte strings of different lengths below 256. -/
def lengthCommitments : Commitments := ⟨Sample.lengthCommitment, Sample.lengthCommitment⟩

/-- The view of a roster of two members. -/
def pairView : RosterView :=
  let roster := Sample.successor 1 (Sample.lengthCommitment Sample.genesis.layout)
    [Sample.alice, Sample.bob]
  ⟨roster, Sample.lengthCommitment roster.layout⟩

/-- The answer of a roster transition. -/
structure RosterCommit where
  /-- The view's disposition. -/
  disposition : RosterDisposition
  /-- The deferred contexts that were judged again. -/
  revalidated : List RevalidatedReceive
  /-- Whether the control is held for its predecessor. -/
  held : Bool
  deriving DecidableEq

/-- The ciphertext of a control that is committed with its own transition. -/
structure PreparedControl where
  recipient : Member
  /-- The payload's bytes. -/
  payload : Bytes
  ciphertext : Bytes
  deriving DecidableEq

/-- The admission of an invitee with a roster that lists it. -/
structure InvitationAdmission where
  id : InvitationId
  /-- The invitee. -/
  target : Member
  /-- The time. -/
  now : UInt64
  deriving DecidableEq

/-- The live values that a roster transition changes. -/
structure RosterCommitState where
  view : RosterView
  receiver : Option GroupReceiver
  groupOutbox : Option GroupOutbox
  controlOutbox : Option ControlOutbox
  invitationBook : Option InvitationBook
  /-- The held controls. -/
  deferred : Option DeferredRosters
  /-- Sends that are kept outside an outbox. -/
  logicalSends : List LogicalSend

/-- What a caller asks of a roster transition. -/
structure RosterTransition where
  authenticatedAuthority : Member
  /-- The successor. -/
  candidate : Roster
  /-- The provider state that consumed the control, with its effect. -/
  provider : Option (Bytes × CryptoStateEffect)
  /-- A control to prepare with the transition. -/
  preparedControl : Option PreparedControl
  /-- An admission to record with the transition. -/
  admission : Option InvitationAdmission
  /-- The held control that the transition applies. -/
  applying : Option UInt64

/-! ### The parts of a transition -/

/-- What a transition does to the held controls, and whether it holds its own. -/
def deferTransition (currentRevision : UInt64) (t : RosterTransition)
    (disposition : RosterDisposition) (queue : DeferredRosters) : DeferredRosters × Bool :=
  let (queue, held) :=
    match disposition with
    | .accepted => (queue.pruneThrough t.candidate.revision, false)
    | .rejected .missingPredecessor =>
      if Word64.saturatingAdd currentRevision 1 < t.candidate.revision
          ∧ t.candidate.revision ≤ Word64.saturatingAdd currentRevision (1 + holdAhead) then
        let (queue, hold) := queue.hold t.candidate
        (queue, decide (hold ≠ Hold.refused))
      else (queue, false)
    | _ => (queue, false)
  (match t.applying with
    | some revision => queue.remove revision
    | none => queue, held)

/-- The sends kept outside an outbox after an accepted successor. -/
def cancelSends (candidate : Roster) (sends : List LogicalSend) : List LogicalSend :=
  sends.map fun send =>
    if send.id.groupId = candidate.groupId then send.cancelForNewerRoster candidate.revision
    else send

/-- The checkpoints that an accepted successor adds: the newest cancellation and the replaced
roster. -/
def acceptedRecords (disposition : RosterDisposition) (replaced candidate : Roster) :
    Except GroupOperationError (List Bytes) :=
  if disposition = .accepted then do
    let preimage ← policy replaced.encode
    let record ← encodeReplacedRosterRecord candidate.groupId preimage
    pure [encodeGroupOutboxCancellationRecord candidate.groupId candidate.revision, record]
  else pure []

/-- The checkpoint of the held controls, if the transition changed them. -/
def queueRecords (original deferred : Option DeferredRosters) (groupId : GroupId) :
    Except GroupOperationError (List Bytes) :=
  match deferred with
  | none => pure []
  | some queue =>
    if deferred = original then pure []
    else do
      let record ← policy (queue.encodeRecord groupId)
      pure [record]

/-- Record the control that is prepared with its transition. -/
def recordPreparedControl (payloadCommitment : Bytes → Digest) (disposition : RosterDisposition)
    (outbox : Option ControlOutbox) (prepared : PreparedControl) :
    Except GroupOperationError (ControlOutbox × Bytes) := do
  refuseIf (disposition ≠ .accepted) .policy
  match outbox with
  | none => .error .policy
  | some outbox =>
    let outbox ← policy (outbox.recordPrepared payloadCommitment prepared.recipient
      prepared.payload prepared.ciphertext)
    let state ← policy (outbox.encodeState payloadCommitment)
    let record ← encodeControlOutboxRecord state
    pure (outbox, record)

/-- Record the admission that is made with its transition. -/
def recordAdmission (t : RosterTransition) (disposition : RosterDisposition)
    (book : Option InvitationBook) (admission : InvitationAdmission) :
    Except GroupOperationError (InvitationBook × Bytes) := do
  refuseIf (disposition ≠ .accepted ∨ admission.target ∉ t.candidate.members) .policy
  match book with
  | none => .error .policy
  | some book =>
    refuseIf (¬book.invitations.any fun i => i.id = admission.id ∧ i.target = admission.target)
      .policy
    let (book, _) ← policy (discarding (book.admit_ admission.id t.authenticatedAuthority
      t.candidate.authority t.candidate.revision admission.now))
    let state ← policy book.encodeState
    let record ← encodeInvitationBookRecord state
    pure (book, record)

/-- Record a deferred context that a new roster judged. -/
def recordRevalidated (snapshot : OperationSnapshot) (item : RevalidatedReceive) :
    Except GroupOperationError OperationSnapshot := do
  let context ← policy item.context.encode
  recordReceive snapshot .unchanged context item.commitment item.disposition

/-- Install an accepted roster in the receiver and record what it judged. -/
def revalidate (disposition : RosterDisposition) (snapshot : OperationSnapshot)
    (receiver : GroupReceiver) (roster : Roster) (commitment : Digest) :
    Except GroupOperationError (OperationSnapshot × GroupReceiver × List RevalidatedReceive) :=
  if disposition = .accepted then do
    let (receiver, revalidated) ←
      policy (discarding (receiver.installAcceptedRoster roster commitment))
    let snapshot ← revalidated.foldlM recordRevalidated snapshot
    pure (snapshot, receiver, revalidated)
  else pure (snapshot, receiver, [])

/-- Run a check on an optional live value; without a request it stays as it is. -/
def onRequest {σ ι : Type} (live : Option σ)
    (f : ι → Except GroupOperationError (σ × Bytes)) :
    Option ι → Except GroupOperationError (Option σ × List Bytes)
  | none => pure (live, [])
  | some request => do
    let (changed, record) ← f request
    pure (some changed, [record])

/-! ### The transition -/

section Transition

variable {S : Type} [OperationStore S] (commitments : Commitments)

/-- The control records of a transition, with the control outbox and the invitation book after
it. -/
def transitionRecords (live : RosterCommitState) (t : RosterTransition) (preimage : Bytes)
    (commitment : Digest) (view : RosterView) (disposition : RosterDisposition)
    (deferred : Option DeferredRosters) :
    Except GroupOperationError (List Bytes × Option ControlOutbox × Option InvitationBook) := do
  let roster ← encodeRosterRecord preimage commitment disposition
  let accepted ← acceptedRecords disposition live.view.roster t.candidate
  let (controlOutbox, prepared) ← onRequest live.controlOutbox
    (recordPreparedControl commitments.payload disposition live.controlOutbox) t.preparedControl
  let (book, admission) ← onRequest live.invitationBook
    (recordAdmission t disposition live.invitationBook) t.admission
  let effect := t.provider.toList.map fun provider => encodeControlEffectRecord provider.2
  let viewState ← policy view.encodeState
  let viewRecord ← encodeRosterViewRecord viewState
  let queue ← queueRecords live.deferred deferred t.candidate.groupId
  pure ([roster] ++ accepted ++ prepared ++ admission ++ effect ++ [viewRecord] ++ queue,
    controlOutbox, book)

/-- Compact the transcript after an accepted successor stopped sends. -/
def compactAfter (disposition : RosterDisposition) (snapshot : OperationSnapshot)
    (groupId : GroupId) (outbox : Option GroupOutbox) :
    Except GroupOperationError (OperationSnapshot × Option GroupOutbox) :=
  if disposition = .accepted ∧ outbox.isSome then do
    let (snapshot, compacted) ← compactGroupOutbox commitments.payload snapshot groupId
    pure (snapshot, compacted.or outbox)
  else pure (snapshot, outbox)

/-- Bring the receiver and the receive records up to the transition. -/
def receiveAfter (disposition : RosterDisposition) (snapshot : OperationSnapshot)
    (roster : Roster) (commitment : Digest) (receiver : Option GroupReceiver) :
    Except GroupOperationError
      (OperationSnapshot × Option GroupReceiver × List RevalidatedReceive) :=
  match receiver with
  | none => pure (snapshot, none, [])
  | some receiver => do
    let (snapshot, receiver, revalidated) ←
      revalidate disposition snapshot receiver roster commitment
    let applicationState ← policy receiver.encodeState
    pure ({ snapshot with applicationState }, some receiver, revalidated)

/-- What `commitRosterTransition` publishes. -/
def rosterTransitionPlan (store : S) (snapshot : OperationSnapshot) (live : RosterCommitState)
    (t : RosterTransition) : Except GroupOperationError (Plan RosterCommitState RosterCommit) := do
  let preimage ← policy t.candidate.encode
  let commitment := commitments.roster preimage
  let (view, disposition) := live.view.acceptSuccessor t.authenticatedAuthority t.candidate
    commitment
  let deferred := live.deferred.map (deferTransition live.view.roster.revision t disposition)
  let accepted : Bool := disposition = .accepted
  let logicalSends := if accepted then cancelSends t.candidate live.logicalSends
    else live.logicalSends
  let groupOutbox := if accepted then
      live.groupOutbox.map fun outbox => outbox.cancelForNewerRoster t.candidate.revision
    else live.groupOutbox
  let candidate ← beginCandidate store snapshot
  let candidate := { candidate with
    providerState := (t.provider.map Prod.fst).getD candidate.providerState }
  let (records, controlOutbox, invitationBook) ← transitionRecords commitments live t preimage
    commitment view disposition (deferred.map Prod.fst)
  let candidate := { candidate with
    groupControls := appendGroupControlRecords candidate.groupControls records }
  let (candidate, groupOutbox) ← compactAfter commitments disposition candidate
    t.candidate.groupId groupOutbox
  let (candidate, receiver, revalidated) ← receiveAfter disposition candidate t.candidate
    commitment live.receiver
  pure (.publish candidate
    { view, receiver, groupOutbox, controlOutbox, invitationBook, logicalSends,
      deferred := deferred.map Prod.fst }
    { disposition, revalidated, held := deferred.any Prod.snd })

/-- Commit the judgement of a roster control with everything it changes. -/
def commitRosterTransition (l : Ledger S RosterCommitState) (t : RosterTransition) :
    Ledger S RosterCommitState × Except GroupOperationError RosterCommit :=
  l.commit (rosterTransitionPlan commitments l.store l.snapshot l.live t)

end Transition

/-! ### Held controls -/

section Held

variable {S : Type} [OperationStore S]

/-- What `commitHoldRosterWithoutView` publishes. -/
def holdRosterWithoutViewPlan (store : S) (snapshot : OperationSnapshot) (queue : DeferredRosters)
    (pinnedAuthority : Member) (groupId : GroupId) (control : Roster)
    (provider : Bytes × CryptoStateEffect) :
    Except GroupOperationError (Plan DeferredRosters Unit) := do
  refuseIf (control.groupId ≠ groupId ∨ control.authority ≠ pinnedAuthority
    ∨ control.revision = 0) .policy
  let (queue, hold) := queue.holdKeepingLowest control
  refuseIf (hold = .refused) .policy
  let candidate ← beginCandidate store snapshot
  let record ← policy (queue.encodeRecord groupId)
  pure (.publish { candidate with
      providerState := provider.1
      groupControls := appendGroupControlRecords candidate.groupControls
        [encodeControlEffectRecord provider.2, record] } queue ())

/-- Hold a control that reached a coordinator without a view. -/
def commitHoldRosterWithoutView (l : Ledger S DeferredRosters) (pinnedAuthority : Member)
    (groupId : GroupId) (control : Roster) (provider : Bytes × CryptoStateEffect) :
    Ledger S DeferredRosters × Except GroupOperationError Unit :=
  l.commit (holdRosterWithoutViewPlan l.store l.snapshot l.live pinnedAuthority groupId control
    provider)

/-- The live values that a held control changes when it is applied. -/
structure DeferredState where
  view : RosterView
  receiver : GroupReceiver
  groupOutbox : GroupOutbox
  /-- The held controls. -/
  queue : DeferredRosters

/-- The values as a roster transition takes them. -/
def DeferredState.toCommitState (d : DeferredState) : RosterCommitState where
  view := d.view
  receiver := some d.receiver
  groupOutbox := some d.groupOutbox
  controlOutbox := none
  invitationBook := none
  deferred := some d.queue
  logicalSends := []

/-- The values after a roster transition. -/
def DeferredState.afterCommit (d : DeferredState) (live : RosterCommitState) : DeferredState where
  view := live.view
  receiver := live.receiver.getD d.receiver
  groupOutbox := live.groupOutbox.getD d.groupOutbox
  queue := live.deferred.getD d.queue

/-- A held control as a transition of its own. -/
def deferredTransition (view : RosterView) (next : Roster) : RosterTransition where
  authenticatedAuthority := view.roster.authority
  candidate := next
  provider := none
  preparedControl := none
  admission := none
  applying := some next.revision

/-- Apply the held control that succeeds the view, if there is one. -/
def commitNextDeferredRoster (commitments : Commitments) (l : Ledger S DeferredState) :
    Ledger S DeferredState × Except GroupOperationError (Option RosterCommit) :=
  match l.live.queue.nextFor l.live.view with
  | none => (l, .ok none)
  | some next =>
    let (committed, answer) := commitRosterTransition commitments
      (l.withLive l.live.toCommitState) (deferredTransition l.live.view next)
    (committed.withLive (l.live.afterCommit committed.live), answer.map some)

/-- What `commitPruneDeferredRosters` publishes. -/
def pruneDeferredRostersPlan (store : S) (snapshot : OperationSnapshot) (view : RosterView)
    (groupId : GroupId) (queue : DeferredRosters) :
    Except GroupOperationError (Plan DeferredRosters Bool) := do
  let pruned := queue.pruneThrough view.roster.revision
  if pruned = queue then pure (.settled false)
  else
    let candidate ← beginCandidate store snapshot
    let record ← policy (pruned.encodeRecord groupId)
    pure (.publish { candidate with
      groupControls := appendGroupControlRecords candidate.groupControls [record] } pruned true)

/-- Drop the held controls that the view has passed. -/
def commitPruneDeferredRosters (l : Ledger S DeferredRosters) (view : RosterView)
    (groupId : GroupId) : Ledger S DeferredRosters × Except GroupOperationError Bool :=
  l.commit (pruneDeferredRostersPlan l.store l.snapshot view groupId l.live)

end Held

/-! ### Recovery -/

/-- Restore the receiver. -/
def recoverGroupReceiver (commitments : Commitments) (snapshot : OperationSnapshot) :
    Except GroupOperationError GroupReceiver :=
  policy (GroupReceiver.decodeState snapshot.applicationState commitments.roster
    commitments.payload)

/-- Restore the latest roster view of the pinned authority. -/
def recoverGroupRosterView (commitments : Commitments) (snapshot : OperationSnapshot)
    (pinnedAuthority : Member) : Except GroupOperationError RosterView :=
  match latestCheckpoint snapshot.groupControls (ascii "TCGV") with
  | none => .error .policy
  | some record => do
    let state ← decodeCheckpointRecord (ascii "TCGV") record
    policy (RosterView.decodeState state pinnedAuthority commitments.roster)

/-- Restore the latest invitation book of a group. -/
def recoverGroupInvitationBook (snapshot : OperationSnapshot) (groupId : GroupId) :
    Except GroupOperationError InvitationBook :=
  match latestCheckpoint snapshot.groupControls (ascii "TCGB") with
  | none => .error .policy
  | some record => do
    let state ← decodeCheckpointRecord (ascii "TCGB") record
    policy (InvitationBook.decodeState state groupId)

/-- Restore the latest control outbox. -/
def recoverGroupControlOutbox (commitments : Commitments) (snapshot : OperationSnapshot) :
    Except GroupOperationError ControlOutbox :=
  match latestCheckpoint snapshot.groupControls (ascii "TCGO") with
  | none => .ok .empty
  | some record => do
    let state ← decodeCheckpointRecord (ascii "TCGO") record
    policy (ControlOutbox.decodeState commitments.payload state)

/-- Restore the latest held controls of a group and its pinned authority. -/
def recoverGroupDeferredRosters (snapshot : OperationSnapshot) (groupId : GroupId)
    (pinnedAuthority : Member) : Except GroupOperationError DeferredRosters :=
  match latestCheckpoint snapshot.groupControls
    (DeferredRosters.recordTag ++ groupId.bytes.val) with
  | none => .ok .empty
  | some record => policy (DeferredRosters.decodeRecord record groupId pinnedAuthority)

end Tacenta.Client
