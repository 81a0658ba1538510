import Tacenta.Client.Frames
import Tacenta.Client.OutboxRecovery

/-!
# All commits of one group

The commits of a coordinator for one group as a machine over the accepted view and the group outbox.
The other live values of a commit, such as the receiver, the invitation book or the held controls,
are arguments of its call, so that a call may be made with any of them.

## Main definitions

* `SideCall`, `sideStep`: the commits that change neither the view nor the group outbox.
* `GroupCall`, `groupStep`: all commits; a roster commit answers with the disposition.

## Main results

* `sideStep_keeps`: what side commits keep of the snapshot.
* `groupStep_cases`: a call is a commit of the group outbox, a roster transition or a side commit.
* `mirrored_groupStep`: every call keeps the outbox recoverable from the snapshot.
-/

open ByteString Records Result Tacenta.Group

namespace Tacenta.Client

variable {S : Type} [OperationStore S] {commitments : Commitments}
  {snapshot candidate : OperationSnapshot}

/-! ### Commits beside the view and the group outbox -/

/-- The commits that change neither the view nor the group outbox, each with the live value that it
changes. -/
inductive SideCall where
  | receive (receiver : GroupReceiver) (context : ApplicationContext) (peer : Member)
      (providerState : Bytes) (effect : CryptoStateEffect)
  | malformed (plaintext providerState : Bytes) (effect : CryptoStateEffect)
  | provider (providerState : Bytes)
  | cursor (cursor : UInt64)
  | invitation (book : InvitationBook)
      (transition : InvitationBook → InvitationBook × Except Error Unit)
  | bootstrap (book : InvitationBook) (localMember : Member) (now : UInt64)
      (input : GroupReceiveInput)
  | acceptance (book : InvitationBook) (now : UInt64) (input : GroupReceiveInput)
  | revocation (book : InvitationBook) (localTarget sourceAuthority : Member) (now : UInt64)
      (input : GroupReceiveInput)
  | authorityRevocation (book : InvitationBook) (outbox : ControlOutbox) (authority : Member)
      (invitationId : InvitationId) (now : UInt64)
  | control (outbox : ControlOutbox)
      (transition : ControlOutbox → Except Error (ControlOutbox × Unit))
  | preparedControl (outbox : ControlOutbox) (recipient : Member)
      (payload ciphertext providerState : Bytes)
  | hold (queue : DeferredRosters) (authority : Member) (groupId : GroupId) (control : Roster)
      (provider : Bytes × CryptoStateEffect)
  | prune (queue : DeferredRosters) (groupId : GroupId)

/-- Run a commit of another live value. -/
def beside {σ α : Type} (l : Ledger S OutboxState) (live : σ)
    (e : Effect (Ledger S σ) GroupOperationError α) :
    Ledger S OutboxState × Except GroupOperationError Unit :=
  let (committed, answer) := e (l.withLive live)
  (committed.withLive l.live, answer.map fun _ => ())

/-- One side commit. -/
def sideStep (commitments : Commitments) :
    Machine (Ledger S OutboxState) SideCall (Except GroupOperationError Unit)
  | l, .receive receiver context peer providerState effect =>
    beside l receiver (commitReceiveDisposition commitments context peer providerState effect)
  | l, .malformed plaintext providerState effect =>
    beside l () (commitMalformedGroupPayload commitments plaintext providerState effect)
  | l, .provider providerState => beside l () (commitProviderState providerState)
  | l, .cursor cursor => beside l () (commitDeliveryCursor cursor)
  | l, .invitation book transition => beside l book (commitGroupInvitationTransition transition)
  | l, .bootstrap book localMember now input =>
    beside l book (commitGroupInvitationBootstrap commitments localMember now input)
  | l, .acceptance book now input =>
    beside l book (commitGroupInvitationAcceptance commitments now input)
  | l, .revocation book localTarget sourceAuthority now input =>
    beside l book (commitGroupInvitationRevocation commitments localTarget sourceAuthority now
      input)
  | l, .authorityRevocation book outbox authority invitationId now =>
    beside l (book, outbox) (commitAuthorityInvitationRevocationTransition commitments authority
      invitationId now)
  | l, .control outbox transition =>
    beside l outbox (commitGroupControlOutboxTransition commitments transition)
  | l, .preparedControl outbox recipient payload ciphertext providerState =>
    beside l outbox (commitPreparedControlHandoff commitments recipient payload ciphertext
      providerState)
  | l, .hold queue authority groupId control provider =>
    beside l queue fun l => commitHoldRosterWithoutView l authority groupId control provider
  | l, .prune queue groupId =>
    beside l queue fun queue => commitPruneDeferredRosters queue l.live.view groupId

/-- The candidate agrees with the snapshot on the send records and on the control records, apart
from appended ones that say nothing about the view and the sends. -/
def Aside (snapshot candidate : OperationSnapshot) : Prop :=
  candidate.outbox = snapshot.outbox ∧ (candidate.groupControls = snapshot.groupControls ∨
    ∃ records, SideRecords records ∧
      candidate.groupControls = appendGroupControlRecords snapshot.groupControls records)

theorem Appended.aside (h : Appended snapshot candidate) : Aside snapshot candidate := by
  obtain ⟨generation, providerState, records, hside, rfl⟩ := h
  exact ⟨rfl, .inr ⟨records, hside, rfl⟩⟩

/-- A publication keeps what holds before it and of everything that it may publish aside. -/
theorem keeps_publish_aside {σ α : Type} {P : OperationSnapshot → Prop}
    (hP : ∀ snapshot candidate, P snapshot → Aside snapshot candidate → P candidate)
    (plan : S → OperationSnapshot → σ → Except GroupOperationError (Plan σ α))
    (hplan : ∀ store snapshot live candidate live' answer,
      plan store snapshot live = .ok (.publish candidate live' answer) →
        Aside snapshot candidate) :
    Effect.Keeps (fun l : Ledger S σ => P l.snapshot) (Ledger.publish plan) := by
  intro l hl
  exact Ledger.commit_invariant (fun snapshot _ => P snapshot) hl
    fun candidate live answer hpublish => hP _ _ hl (hplan _ _ _ _ _ _ hpublish)

section Keeps

variable {P : OperationSnapshot → Prop}
  (hP : ∀ snapshot candidate, P snapshot → Aside snapshot candidate → P candidate)

include hP

private theorem keeps_malformed {σ : Type} (plaintext providerState : Bytes)
    (effect : CryptoStateEffect) : Effect.Keeps (fun l : Ledger S σ => P l.snapshot)
      (commitMalformedGroupPayload commitments plaintext providerState effect) := by
  refine keeps_publish_aside hP _ fun store snapshot live candidate live' answer h => ?_
  obtain ⟨begun, hbegun, h⟩ := bind_eq_ok.mp h
  obtain ⟨generation, rfl⟩ := beginCandidate_eq_ok hbegun
  obtain ⟨record, -, h⟩ := bind_eq_ok.mp h
  cases h
  exact ⟨rfl, .inl rfl⟩

private theorem keeps_receive (context : ApplicationContext) (peer : Member) (providerState : Bytes)
    (effect : CryptoStateEffect) : Effect.Keeps (fun l : Ledger S GroupReceiver => P l.snapshot)
      (commitReceiveDisposition commitments context peer providerState effect) := by
  refine keeps_publish_aside hP _ fun store snapshot live candidate live' answer h => ?_
  simp only [receiveDispositionPlan, bind_eq_ok, policy_eq_ok] at h
  obtain ⟨_, -, begun, hbegun, state, -, logged, hlogged, h⟩ := h
  obtain ⟨generation, rfl⟩ := beginCandidate_eq_ok hbegun
  have hframe := recordReceive_frame hlogged
  obtain ⟨rfl, -, -⟩ := Plan.publish.inj (Except.ok.inj h)
  rw [hframe]
  exact ⟨rfl, .inl rfl⟩

private theorem keeps_invalidInvitation {α : Type} (input : GroupReceiveInput) :
    Effect.Keeps (fun l : Ledger S InvitationBook => P l.snapshot)
      (commitInvalidInvitationControl commitments input :
        Effect (Ledger S InvitationBook) GroupOperationError α) :=
  .bind (keeps_malformed hP _ _ _) fun _ => .fail _

private theorem keeps_invitationTransition {α : Type}
    (provider : Option (Bytes × CryptoStateEffect))
    (transition : InvitationBook → InvitationBook × Except Error α) :
    Effect.Keeps (fun l : Ledger S InvitationBook => P l.snapshot)
      (commitGroupInvitationTransitionWithProvider provider transition) :=
  keeps_publish_aside hP _ fun _ _ _ _ _ _ h => (appended_invitationTransition h).aside

private theorem keeps_receivedInvitation {α : Type} (input : GroupReceiveInput)
    (transition : InvitationBook → InvitationBook × Except Error α) :
    Effect.Keeps (fun l : Ledger S InvitationBook => P l.snapshot)
      (commitReceivedInvitation commitments input transition) := by
  refine .bind (keeps_invitationTransition hP _ transition).attempt fun result => ?_
  cases result with
  | ok answer => exact .pure answer
  | error e =>
    cases e with
    | policy => exact keeps_invalidInvitation hP input
    | frozen => exact .fail _

/-- What holds of a snapshot and of every candidate aside from it is kept by every side commit. -/
theorem sideStep_keeps {l : Ledger S OutboxState} (h : P l.snapshot) (call : SideCall) :
    P (sideStep commitments l call).1.snapshot := by
  cases call with
  | receive receiver context peer providerState effect =>
    exact keeps_receive hP context peer providerState effect (l.withLive receiver) h
  | malformed plaintext providerState effect =>
    exact keeps_malformed hP plaintext providerState effect (l.withLive ()) h
  | provider providerState =>
    refine keeps_publish_aside hP _ (fun store snapshot live candidate live' answer h => ?_)
      (l.withLive ()) h
    obtain ⟨-, generation, rfl⟩ := providerStatePlan_publish h
    exact ⟨rfl, .inl rfl⟩
  | cursor cursor =>
    refine keeps_publish_aside hP _ (fun store snapshot live candidate live' answer h => ?_)
      (l.withLive ()) h
    obtain ⟨begun, hbegun, h⟩ := bind_eq_ok.mp h
    obtain ⟨generation, rfl⟩ := beginCandidate_eq_ok hbegun
    cases h
    exact ⟨rfl, .inl rfl⟩
  | invitation book transition =>
    exact keeps_invitationTransition hP none transition (l.withLive book) h
  | bootstrap book localMember now input =>
    refine (?_ : Effect.Keeps (fun l : Ledger S InvitationBook => P l.snapshot)
      (commitGroupInvitationBootstrap commitments localMember now input)) (l.withLive book) h
    rw [commitGroupInvitationBootstrap]
    split
    · refine .bind (.lift _) fun preimage => ?_
      split
      · exact keeps_invalidInvitation hP input
      · exact keeps_receivedInvitation hP input _
    · exact keeps_invalidInvitation hP input
  | acceptance book now input =>
    refine (?_ : Effect.Keeps (fun l : Ledger S InvitationBook => P l.snapshot)
      (commitGroupInvitationAcceptance commitments now input)) (l.withLive book) h
    rw [commitGroupInvitationAcceptance]
    split
    · refine .get_bind fun l hl => ?_
      split
      · exact keeps_invalidInvitation hP input l hl
      · exact keeps_receivedInvitation hP input _ l hl
    · exact keeps_invalidInvitation hP input
  | revocation book localTarget sourceAuthority now input =>
    refine (?_ : Effect.Keeps (fun l : Ledger S InvitationBook => P l.snapshot)
      (commitGroupInvitationRevocation commitments localTarget sourceAuthority now input))
        (l.withLive book) h
    rw [commitGroupInvitationRevocation]
    split
    · refine .get_bind fun l hl => ?_
      split
      · exact keeps_invalidInvitation hP input l hl
      · exact keeps_receivedInvitation hP input _ l hl
    · exact keeps_invalidInvitation hP input
  | authorityRevocation book outbox authority invitationId now =>
    exact keeps_publish_aside hP _ (fun _ _ _ _ _ _ h =>
      (appended_authorityInvitationRevocation h).aside) (l.withLive (book, outbox)) h
  | control outbox transition =>
    exact keeps_publish_aside hP _ (fun _ _ _ _ _ _ h =>
      (appended_controlOutboxTransition h).aside) (l.withLive outbox) h
  | preparedControl outbox recipient payload ciphertext providerState =>
    exact keeps_publish_aside hP _ (fun _ _ _ _ _ _ h =>
      (appended_preparedControlHandoff h).aside) (l.withLive outbox) h
  | hold queue authority groupId control provider =>
    exact keeps_publish_aside hP (fun store snapshot queue =>
      holdRosterWithoutViewPlan store snapshot queue authority groupId control provider)
      (fun _ _ _ _ _ _ h => (appended_holdRosterWithoutView h).aside) (l.withLive queue) h
  | prune queue groupId =>
    exact keeps_publish_aside hP (fun store snapshot queue =>
      pruneDeferredRostersPlan store snapshot l.live.view groupId queue)
      (fun _ _ _ _ _ _ h => (appended_pruneDeferredRosters h).aside) (l.withLive queue) h

end Keeps

theorem live_sideStep (l : Ledger S OutboxState) (call : SideCall) :
    (sideStep commitments l call).1.live = l.live := by cases call <;> rfl

/-! ### All commits -/

/-- Whether a call commits a roster transition. -/
def OutboxCall.isRoster : OutboxCall → Bool
  | .roster .. => true
  | _ => false

/-- The live values that a roster transition is made with, apart from the view and the group
outbox. -/
structure RosterCompany where
  receiver : Option GroupReceiver
  controlOutbox : Option ControlOutbox
  invitationBook : Option InvitationBook
  /-- The held controls. -/
  deferred : Option DeferredRosters
  /-- Sends that are kept outside an outbox. -/
  logicalSends : List LogicalSend

/-- The commits of a group: those of its outbox, roster transitions, the next held roster, a
received payload and the side commits. -/
inductive GroupCall where
  | outbox (call : OutboxCall) (hcall : call.isRoster = false)
  | roster (t : RosterTransition) (company : RosterCompany)
  | nextDeferred (receiver : GroupReceiver) (queue : DeferredRosters)
  | payload (receiver : GroupReceiver) (queue : DeferredRosters) (input : GroupReceiveInput)
  | side (call : SideCall)

/-- The live values of a roster transition. -/
def OutboxState.toCommitState (live : OutboxState) (company : RosterCompany) :
    RosterCommitState where
  view := live.view
  receiver := company.receiver
  groupOutbox := some live.outbox
  controlOutbox := company.controlOutbox
  invitationBook := company.invitationBook
  deferred := company.deferred
  logicalSends := company.logicalSends

/-- Run a commit of the view, the group outbox and the receive side. -/
def onReceiveSide {α : Type} (l : Ledger S OutboxState) (receiver : GroupReceiver)
    (queue : DeferredRosters) (e : Effect (Ledger S DeferredState) GroupOperationError α) :
    Ledger S OutboxState × Except GroupOperationError α :=
  let (committed, answer) := e (l.withLive ⟨l.live.view, receiver, l.live.outbox, queue⟩)
  (committed.withLive ⟨committed.live.view, committed.live.groupOutbox⟩, answer)

/-- The disposition of the roster that a payload held. -/
def GroupPayloadDisposition.roster? : GroupPayloadDisposition → Option RosterDisposition
  | .application _ => none
  | .roster commit => some commit.disposition

/-- One commit of a group. The answer says how a roster was judged. -/
def groupStep (commitments : Commitments) :
    Machine (Ledger S OutboxState) GroupCall (Except GroupOperationError (Option RosterDisposition))
  | l, .outbox call _ =>
    let (committed, answer) := outboxStep commitments l call
    (committed, answer.map fun _ => none)
  | l, .roster t company =>
    let (committed, answer) :=
      commitRosterTransition commitments (l.withLive (l.live.toCommitState company)) t
    (committed.withLive ⟨committed.live.view, committed.live.groupOutbox.getD l.live.outbox⟩,
      answer.map fun commit => some commit.disposition)
  | l, .nextDeferred receiver queue =>
    let (committed, answer) := onReceiveSide l receiver queue (commitNextDeferredRoster commitments)
    (committed, answer.map fun commit => commit.map RosterCommit.disposition)
  | l, .payload receiver queue input =>
    let (committed, answer) := onReceiveSide l receiver queue
      (commitGroupPayloadWithDeferred commitments input)
    (committed, answer.map GroupPayloadDisposition.roster?)
  | l, .side call =>
    let (committed, answer) := sideStep commitments l call
    (committed, answer.map fun _ => none)

/-- A call of one of the three kinds that the others come down to. -/
inductive GroupCall.Basic : GroupCall → Prop
  | outbox (call : OutboxCall) (hcall : call.isRoster = false) : Basic (.outbox call hcall)
  | roster (t : RosterTransition) (company : RosterCompany) : Basic (.roster t company)
  | side (call : SideCall) : Basic (.side call)

private theorem map_map {ε α β γ : Type} (x : Except ε α) (f : α → β) (g : β → γ) :
    (x.map f).map g = x.map fun a => g (f a) := by cases x <;> rfl

theorem groupStep_nextDeferred (l : Ledger S OutboxState) (receiver : GroupReceiver)
    (queue : DeferredRosters) :
    groupStep commitments l (.nextDeferred receiver queue) = (l, .ok none) ∨ ∃ next,
      groupStep commitments l (.nextDeferred receiver queue) =
        groupStep commitments l (.roster (deferredTransition l.live.view next)
          ⟨some receiver, none, none, some queue, []⟩) := by
  simp only [groupStep, onReceiveSide, commitNextDeferredRoster]
  split
  · exact .inl rfl
  · next next _ =>
    exact .inr ⟨next, Prod.ext rfl (map_map _ some _)⟩

private theorem commitMalformedGroupPayload_withLive {σ τ : Type} (l : Ledger S OutboxState)
    (plaintext providerState : Bytes) (effect : CryptoStateEffect) (a : σ) (b : τ) :
    (commitMalformedGroupPayload commitments plaintext providerState effect (l.withLive a)).1 =
        (commitMalformedGroupPayload commitments plaintext providerState effect
          (l.withLive b)).1.withLive a ∧
      (commitMalformedGroupPayload commitments plaintext providerState effect (l.withLive a)).2 =
        (commitMalformedGroupPayload commitments plaintext providerState effect
          (l.withLive b)).2 := by
  simp only [commitMalformedGroupPayload, Ledger.publish, malformedGroupPayloadPlan,
    Ledger.withLive]
  cases beginCandidate l.store l.snapshot with
  | error e => exact ⟨rfl, rfl⟩
  | ok begun =>
    cases encodeMalformedRecord commitments.payload effect plaintext with
    | error e => exact ⟨rfl, rfl⟩
    | ok record =>
      simp only [ok_bind, pure, Except.pure, Ledger.commit]
      rcases OperationStore.commit l.store _ with ⟨store, _ | _ | _⟩ <;> exact ⟨rfl, rfl⟩

private theorem commitGroupPayloadWithDeferred_cases (input : GroupReceiveInput) :
    (∃ context, (commitGroupPayloadWithDeferred commitments input :
        Effect (Ledger S DeferredState) GroupOperationError GroupPayloadDisposition) =
      (Ledger.onLive DeferredState.receiver (fun receiver d => { d with receiver })
        (commitReceiveDisposition commitments context input.authenticatedPeer input.providerState
          input.providerEffect) >>= fun disposition => pure (.application disposition))) ∨
    (∃ candidate, (commitGroupPayloadWithDeferred commitments input :
        Effect (Ledger S DeferredState) GroupOperationError GroupPayloadDisposition) =
      ((Ledger.onLive DeferredState.toCommitState (fun live d => d.afterCommit live) fun l =>
        commitRosterTransition commitments l (receivedTransition input candidate)) >>= fun commit =>
          pure (.roster commit))) ∨
    (commitGroupPayloadWithDeferred commitments input :
        Effect (Ledger S DeferredState) GroupOperationError GroupPayloadDisposition) =
      (refuseInput commitments input >>= fun _ => pure (.application (.rejected .malformed))) := by
  rw [commitGroupPayloadWithDeferred]
  split
  · exact .inl ⟨_, rfl⟩
  · exact .inr (.inl ⟨_, rfl⟩)
  · exact .inr (.inr rfl)

/-- A received payload is an application context, a roster control or a refused item. -/
theorem groupStep_payload (l : Ledger S OutboxState) (receiver : GroupReceiver)
    (queue : DeferredRosters) (input : GroupReceiveInput) :
    (∃ call, groupStep commitments l (.payload receiver queue input) =
        groupStep commitments l (.side call)) ∨
      ∃ candidate, groupStep commitments l (.payload receiver queue input) =
        groupStep commitments l (.roster (receivedTransition input candidate)
          ⟨some receiver, none, none, some queue, []⟩) := by
  simp only [groupStep, onReceiveSide]
  rcases @commitGroupPayloadWithDeferred_cases S _ commitments input with
    ⟨context, h⟩ | ⟨candidate, h⟩ | h
  · rw [h, Effect.bind_pure_apply]
    exact .inl ⟨.receive receiver context input.authenticatedPeer input.providerState
      input.providerEffect, Prod.ext rfl
        ((map_map _ _ _).trans (map_map _ (fun _ => ()) fun _ => none).symm)⟩
  · rw [h, Effect.bind_pure_apply]
    exact .inr ⟨candidate, Prod.ext rfl (map_map _ _ _)⟩
  · rw [h, Effect.bind_pure_apply]
    refine .inl ⟨.malformed input.plaintext input.providerState input.providerEffect,
      ?_⟩
    obtain ⟨hledger, hanswer⟩ := @commitMalformedGroupPayload_withLive S _ commitments _ _ l
      input.plaintext input.providerState input.providerEffect
      (DeferredState.mk l.live.view receiver l.live.outbox queue) ()
    rw [refuseInput, hledger, hanswer]
    exact Prod.ext rfl ((map_map _ _ _).trans (map_map _ (fun _ => ()) fun _ => none).symm)

/-- Every call does nothing or what a call of one of the three kinds does. -/
theorem groupStep_cases (l : Ledger S OutboxState) (call : GroupCall) :
    groupStep commitments l call = (l, .ok none) ∨ ∃ basic : GroupCall, basic.Basic ∧
      groupStep commitments l call = groupStep commitments l basic := by
  cases call with
  | outbox call hcall => exact .inr ⟨_, .outbox call hcall, rfl⟩
  | roster t company => exact .inr ⟨_, .roster t company, rfl⟩
  | nextDeferred receiver queue =>
    rcases @groupStep_nextDeferred S _ commitments l receiver queue with h | ⟨next, h⟩
    · exact .inl h
    · exact .inr ⟨_, .roster _ _, h⟩
  | payload receiver queue input =>
    rcases @groupStep_payload S _ commitments l receiver queue input with
      ⟨call, h⟩ | ⟨candidate, h⟩
    · exact .inr ⟨_, .side call, h⟩
    · exact .inr ⟨_, .roster _ _, h⟩
  | side call => exact .inr ⟨_, .side call, rfl⟩

/-! ### The group outbox stays recoverable -/

variable {group : GroupId} {live : OutboxState}

/-- The mirror concerns the send records and the cancellation alone. -/
theorem Mirrored.aside (h : Mirrored commitments group snapshot live)
    (haside : Aside snapshot candidate) : Mirrored commitments group candidate live := by
  obtain ⟨hgroup, c, hc, entries, hs, hm⟩ := h
  obtain ⟨houtbox, hcontrols⟩ := haside
  refine ⟨hgroup, c, hc, entries, ⟨houtbox.trans hs.outbox, ?_⟩, hm⟩
  rcases hcontrols with hcontrols | ⟨records, hside, hcontrols⟩
  · rw [hcontrols, hs.cancellation]
  · rw [hcontrols]
    exact filter_append_of_none (by decide) (hside.filter_eq_nil rfl (by decide)) hs.cancellation

/-- Every call keeps the outbox recoverable from the snapshot. -/
theorem mirrored_groupStep {l : Ledger S OutboxState}
    (h : Mirrored commitments group l.snapshot l.live) (call : GroupCall) :
    Mirrored commitments group (groupStep commitments l call).1.snapshot
      (groupStep commitments l call).1.live := by
  rcases @groupStep_cases S _ commitments l call with hnone | ⟨basic, hbasic, heq⟩
  · rw [hnone]
    exact h
  rw [heq]
  cases hbasic with
  | outbox call hcall => exact mirrored_step h call
  | roster t company =>
    exact mirrored_step h (.roster t company.receiver company.controlOutbox company.invitationBook
      company.deferred company.logicalSends)
  | side call =>
    have hlive : (groupStep commitments l (.side call)).1.live = l.live := live_sideStep l call
    rw [hlive]
    exact @sideStep_keeps S _ commitments
      (fun snapshot => Mirrored commitments group snapshot l.live)
      (fun _ _ hmirrored haside => hmirrored.aside haside) l h call

end Tacenta.Client
