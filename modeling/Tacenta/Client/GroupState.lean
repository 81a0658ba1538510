import Tacenta.Client.ControlOperations
import Tacenta.Client.RosterTransition

/-!
# The state of an attached group

The live values of an attached group. A coordinator that attaches a group rebuilds its view from the
snapshot, which is the only durable truth: from its checkpoint, or from the roster that the caller
attaches from if there is no checkpoint yet.

## Main definitions

* `GroupError`: why a call of the coordinator is refused.
* `GroupState`: the live values of an attached group.
* `restoreView`: the view that attaching rebuilds.
* `drainDeferredRosters`: applying the held controls.

## Main results

* `restoreView_congr`: the view is rebuilt from its checkpoint alone.
* `restoreView_of_checkpoint`: a checkpointed view is rebuilt.
-/

open ByteString Result Tacenta.Group

namespace Tacenta.Client

/-- A failure of the underlying client, as far as the coordinator tells failures apart. -/
inductive ClientError where
  | io (permissionDenied : Bool)
  | rateLimited
  | other
  deriving DecidableEq

/-- Why a call of the coordinator is refused. -/
inductive GroupError where
  | client (error : ClientError)
  | frozen
  | policy
  | transport
  | noGroup
  | recovery
  | stateMismatch
  | rollback
  deriving DecidableEq

/-- A refused operation as the coordinator reports it. -/
def GroupError.ofOperation : GroupOperationError → GroupError
  | .policy => .policy
  | .frozen => .frozen

/-- The live values of an attached group. -/
structure GroupState where
  groupId : GroupId
  /-- The pinned authority. -/
  authority : Member
  /-- The roster that the caller attached the group from. -/
  source : Option Roster
  localMember : Member
  view : Option RosterView
  receiver : Option GroupReceiver
  outbox : GroupOutbox
  control : ControlOutbox
  book : InvitationBook
  /-- The held roster controls. -/
  deferred : DeferredRosters

/-- Report any refusal of a check as another. -/
def refusedAs {ε α : Type} (e : GroupError) (x : Except ε α) : Except GroupError α :=
  x.mapError fun _ => e

theorem refusedAs_eq_ok {ε α : Type} {e : GroupError} {x : Except ε α} {a : α} :
    refusedAs e x = .ok a ↔ x = .ok a := mapError_eq_ok

/-! ### Rebuilding -/

/-- The view at the roster that a group is attached from. -/
def sourceView (commitments : Commitments) (groupId : GroupId) (authority : Member)
    (source : Roster) : Except GroupError RosterView := do
  refuseIf (source.groupId ≠ groupId) .policy
  let preimage ← refusedAs .policy source.encode
  refusedAs .policy (RosterView.acceptSource authority source (commitments.roster preimage))

/-- The checkpointed view, which must be of the attached group. -/
def checkpointView (commitments : Commitments) (snapshot : OperationSnapshot) (groupId : GroupId)
    (authority : Member) : Except GroupError RosterView := do
  let view ← refusedAs .recovery (recoverGroupRosterView commitments snapshot authority)
  refuseIf (view.roster.groupId ≠ groupId) .policy
  pure view

/-- Rebuild the view: its checkpoint wins over the roster that the caller attaches from. -/
def restoreView (commitments : Commitments) (snapshot : OperationSnapshot) (groupId : GroupId)
    (authority : Member) (source : Option Roster) : Except GroupError (Option RosterView) :=
  if snapshot.groupControls.any (hasTag (ascii "TCGV")) then
    some <$> checkpointView commitments snapshot groupId authority
  else
    match source with
    | some source => some <$> sourceView commitments groupId authority source
    | none => pure none

/-! ### Events and held controls -/

/-- An accepted application message with its stable identifier. -/
structure GroupEvent where
  eventId : UInt64
  groupId : GroupId
  /-- The roster revision. -/
  revision : UInt64
  sender : Member
  /-- The sender's sequence. -/
  sequence : UInt64
  payload : Bytes
  deriving DecidableEq

/-- The event of an accepted context. -/
def GroupEvent.new (eventId : UInt64) (context : ApplicationContext) : GroupEvent :=
  ⟨eventId, context.groupId, context.revision, context.sender, context.logicalSequence,
    context.payload⟩

/-- The event of a context that was judged again. -/
def revalidatedEvent (item : RevalidatedReceive) : Option GroupEvent :=
  match item.disposition with
  | .accepted eventId => some (.new eventId item.context)
  | _ => none

section Drain

variable {S : Type} [OperationStore S] (commitments : Commitments)

/-- Apply held controls while one succeeds the view, one commit each; a successful commit removes
the control that it applies. -/
def drainLoop : Nat → Effect (Ledger S DeferredState) GroupOperationError (List GroupEvent)
  | 0 => pure []
  | fuel + 1 => do
    let next ← commitNextDeferredRoster commitments
    match next with
    | none => pure []
    | some commit => do
      let events ← drainLoop fuel
      pure (commit.revalidated.filterMap revalidatedEvent ++ events)

/-- Apply the held controls that succeed the view and drop those that it has passed. -/
def drainDeferred (groupId : GroupId) :
    Effect (Ledger S DeferredState) GroupOperationError (List GroupEvent) := do
  let l ← Effect.get
  let events ← drainLoop commitments l.live.queue.rosters.length
  let l ← Effect.get
  let _ ← Ledger.onLive DeferredState.queue (fun queue d => { d with queue }) fun queue =>
    commitPruneDeferredRosters queue l.live.view groupId
  pure events

/-- A computation on the values that a held control changes. -/
def onDeferredState {ε α : Type} (view : RosterView) (receiver : GroupReceiver)
    (e : Effect (Ledger S DeferredState) ε α) : Effect (Ledger S GroupState) ε α :=
  Ledger.onLive (fun state => ⟨view, receiver, state.outbox, state.deferred⟩)
    (fun d state => { state with
      view := some d.view
      receiver := some d.receiver
      outbox := d.groupOutbox
      deferred := d.queue }) e

/-- Drain the held controls of a group that has a view. -/
def drainDeferredRosters : Effect (Ledger S GroupState) GroupOperationError (List GroupEvent) := do
  let l ← Effect.get
  match l.live.view, l.live.receiver with
  | some view, some receiver =>
    onDeferredState view receiver (drainDeferred commitments l.live.groupId)
  | _, _ => pure []

end Drain

/-! ### Sound views -/

variable {commitments : Commitments} {snapshot snapshot' : OperationSnapshot} {groupId : GroupId}
  {authority : Member} {source : Option Roster} {view : RosterView}

/-- A view whose checkpoint can be restored: a valid roster of the pinned authority, which it lists,
with the roster's own digest. -/
structure SoundView (commitments : Commitments) (groupId : GroupId) (authority : Member)
    (view : RosterView) : Prop where
  groupId_eq : view.roster.groupId = groupId
  valid : view.roster.Valid
  authority_eq : view.roster.authority = authority
  authority_mem : authority ∈ view.roster.members
  digest_eq : view.digest = commitments.roster view.roster.layout

theorem SoundView.successor (h : SoundView commitments groupId authority view) {candidate : Roster}
    (hvalid : candidate.Valid) (hsucceeds : view.Succeeds candidate) :
    SoundView commitments groupId authority ⟨candidate, commitments.roster candidate.layout⟩ where
  groupId_eq := hsucceeds.groupId_eq.trans h.groupId_eq
  valid := hvalid
  authority_eq := hsucceeds.authority_eq.trans h.authority_eq
  authority_mem := hsucceeds.authority_eq.trans h.authority_eq ▸ hsucceeds.authority_mem
  digest_eq := rfl

theorem sourceView_eq_ok {roster : Roster}
    (h : sourceView commitments groupId authority roster = .ok view) :
    SoundView commitments groupId authority view ∧ view.roster = roster := by
  obtain ⟨hgroup, h⟩ := refuseIf_bind_eq_ok.mp h
  simp only [bind_eq_ok, refusedAs_eq_ok, Roster.encode_eq_ok_iff] at h
  obtain ⟨_, ⟨hvalid, rfl⟩, h⟩ := h
  obtain ⟨rfl, rfl, -, hmem⟩ := RosterView.acceptSource_eq_ok h
  exact ⟨⟨not_not.mp hgroup, hvalid, rfl, hmem, rfl⟩, rfl⟩

/-! ### Checkpoints -/

theorem latestCheckpoint_eq (controls : List Bytes) (tag : Bytes) :
    latestCheckpoint controls tag = (controls.filter (hasTag tag)).getLast? := by
  rw [latestCheckpoint, ← List.head?_filter, List.filter_reverse, List.head?_reverse]

theorem any_hasTag (controls : List Bytes) (tag : Bytes) :
    controls.any (hasTag tag) = !(controls.filter (hasTag tag)).isEmpty := by
  induction controls with
  | nil => rfl
  | cons record controls ih =>
    rw [List.any_cons, List.filter_cons]
    cases hasTag tag record
    · exact ih
    · rfl

theorem decodeCheckpointRecord_append {tag state : Bytes} (h : state.length < 2 ^ 32) :
    decodeCheckpointRecord tag (tag ++ lpBytes state) = .ok state := by
  simp only [decodeCheckpointRecord, Reader.run'_eq_ok, readCheckpointRecord,
    Reader.run_bind_eq_ok, Reader.run_takeExact_eq_ok, Reader.run_takeLp_eq_ok,
    Reader.run_finish_eq_ok, Reader.run_pure_eq_ok]
  exact ⟨[], (), _, rfl, _, _, ⟨h, (List.append_nil _).symm⟩, (), _, ⟨rfl, rfl⟩, rfl, rfl⟩

/-- The view is rebuilt from its checkpoint alone. -/
theorem restoreView_congr (h : snapshot'.groupControls.filter (hasTag (ascii "TCGV")) =
      snapshot.groupControls.filter (hasTag (ascii "TCGV"))) :
    restoreView commitments snapshot' groupId authority source =
      restoreView commitments snapshot groupId authority source := by
  simp only [restoreView, checkpointView, recoverGroupRosterView, any_hasTag, latestCheckpoint_eq,
    h]

/-- A checkpointed view is rebuilt. -/
theorem restoreView_of_checkpoint (h : SoundView commitments groupId authority view)
    (hcontrols : snapshot.groupControls.filter (hasTag (ascii "TCGV")) =
      [ascii "TCGV" ++ lpBytes view.stateLayout]) :
    restoreView commitments snapshot groupId authority source = .ok (some view) := by
  have hlength : view.stateLayout.length < 2 ^ 32 := by
    have hroster : view.roster.layout.length ≤ 4096 :=
      view.roster.length_layout ▸ h.valid.encodedLen_le
    have hdigest := view.digest.length_val
    have hdomain : rosterViewStateDomain.length = 34 := by decide
    simp only [RosterView.stateLayout, List.length_append, length_lpBytes, hdigest, digestLen,
      hdomain]
    omega
  have hdecode : RosterView.decodeState view.stateLayout authority commitments.roster = .ok view :=
    RosterView.decodeState_eq_ok_iff.mpr
      ⟨h.valid, h.authority_eq, h.authority_mem, h.digest_eq, rfl⟩
  have hrecover : recoverGroupRosterView commitments snapshot authority = .ok view := by
    rw [recoverGroupRosterView, latestCheckpoint_eq, hcontrols, List.getLast?_singleton]
    dsimp only
    rw [decodeCheckpointRecord_append hlength, ok_bind]
    exact policy_eq_ok.mpr hdecode
  have hview : checkpointView commitments snapshot groupId authority = .ok view := by
    rw [checkpointView, refusedAs_eq_ok.mpr hrecover, ok_bind,
      refuseIf_neg (not_not.mpr h.groupId_eq)]
    rfl
  rw [restoreView.eq_def, any_hasTag, hcontrols, hview]
  rfl

end Tacenta.Client
