import Tacenta.Client.GroupState
import Tacenta.Client.InvitationOperations
import Tacenta.Relay.Delivery

/-!
# The coordinator

How the coordinator of one group commits a decrypted item: by the class of the item, by the tag of
its payload and by what is attached. The coordinator is frozen when an item consumed pairwise state
that could not be committed.

## Main definitions

* `GroupClient`: the coordinator's state.
* `GroupClient.route`, `GroupClient.commitItem`: how an item is committed.
-/

open ByteString Result Tacenta.Group
open Tacenta.Relay (DeviceAddr)

namespace Tacenta.Client

/-- The class of a relay envelope. -/
inductive MessageKind where
  | direct
  | group
  | receipt
  deriving DecidableEq

/-- A fetched item after decryption. -/
structure StagedItem where
  /-- Where it came from. -/
  source : DeviceAddr
  /-- The device of the crypto address. -/
  peerDevice : UInt8
  /-- Its class. -/
  kind : MessageKind
  /-- The plaintext, unless the provider refused the ciphertext. -/
  plaintext : Option Bytes
  /-- The identity that the provider authenticated. -/
  authenticatedIdentity : Option Bytes
  /-- What the item did to the provider's state. -/
  effect : CryptoStateEffect
  /-- The provider state after the item. -/
  providerState : Bytes

/-- What one group item did. -/
inductive GroupOutcome where
  | event (event : GroupEvent)
  | duplicate (eventId : UInt64)
  | deferred
  | rejected (refusal : ReceiveRefusal)
  | roster (disposition : RosterDisposition) (events : List GroupEvent)
  | rosterDeferred
  | invitation (bootstrap : InvitationBootstrap)
  | invitationStatus (status : InvitationStatus)
  | refused

/-- One group item and where it came from. -/
structure GroupReceipt where
  /-- The sender's route. -/
  source : DeviceAddr
  /-- What the item did. -/
  outcome : GroupOutcome

/-- An item of another class. -/
structure Received where
  /-- The sender's route. -/
  source : DeviceAddr
  plaintext : Bytes
  /-- Its class. -/
  kind : MessageKind

/-- What one call of `receive` processed. -/
structure Inbound where
  /-- Events committed by an earlier call and not acknowledged. -/
  redelivered : List GroupEvent
  /-- How many events were issued and are no longer retained. -/
  lostEvents : UInt64
  items : List GroupReceipt
  /-- The other items. -/
  direct : List Received
  /-- How many items the provider refused. -/
  dropped : Nat
  /-- Whether the batch stopped at an item that could not be committed. -/
  frozen : Bool

/-- The coordinator. -/
structure GroupClient (C S : Type) where
  client : C
  store : DurableStore S
  /-- The snapshot that was committed last. -/
  snapshot : OperationSnapshot
  /-- The attached group. -/
  group : Option GroupState
  /-- Whether pairwise state was consumed and not committed. -/
  poisoned : Bool
  /-- One more than the highest event that was handed to the caller. -/
  handedOver : UInt64

namespace GroupClient

variable {C S α : Type}

/-- Whether the calls are refused until a recovery. -/
def isFrozen (g : GroupClient C S) : Bool := g.poisoned || g.store.latch.frozen

/-- A commit that does not involve the group. -/
def onLedger (e : Effect (Ledger (DurableStore S) Unit) GroupOperationError α) :
    Effect (GroupClient C S) GroupError α :=
  (e.mapError GroupError.ofOperation).zoom (fun g => ⟨g.store, g.snapshot, ()⟩)
    fun l g => { g with store := l.store, snapshot := l.snapshot }

/-- A commit of the attached group. -/
def onGroup (state : GroupState)
    (e : Effect (Ledger (DurableStore S) GroupState) GroupOperationError α) :
    Effect (GroupClient C S) GroupError α :=
  (e.mapError GroupError.ofOperation).zoom (fun g => ⟨g.store, g.snapshot, state⟩)
    fun l g => { g with store := l.store, snapshot := l.snapshot, group := some l.live }

variable [OperationStore S] (commitments : Commitments)

/-! ### Routing -/

section Route

/-- Commit a refusal of a payload. -/
def refuse {σ : Type} (input : GroupReceiveInput) :
    Effect (Ledger (DurableStore S) σ) GroupOperationError GroupOutcome := do
  refuseInput commitments input
  pure .refused

def receiveOutcome (disposition : ReceiveDisposition) (context : ApplicationContext) :
    GroupOutcome :=
  match disposition with
  | .accepted eventId => .event (.new eventId context)
  | .duplicate eventId => .duplicate eventId
  | .deferred => .deferred
  | .rejected refusal => .rejected refusal

/-- The outcome of a committed roster control; an accepted one may release held ones. -/
def rosterOutcome (commit : RosterCommit) :
    Effect (Ledger (DurableStore S) GroupState) GroupOperationError GroupOutcome :=
  if commit.held then pure .rosterDeferred
  else if commit.disposition = .accepted then do
    let events ← drainDeferredRosters commitments
    pure (.roster commit.disposition (commit.revalidated.filterMap revalidatedEvent ++ events))
  else pure (.roster commit.disposition (commit.revalidated.filterMap revalidatedEvent))

/-- Hold a roster control that reached a group without a view. -/
def holdControl (input : GroupReceiveInput) (control : Roster) :
    Effect (Ledger (DurableStore S) GroupState) GroupOperationError GroupOutcome := do
  let l ← Effect.get
  let held ← Effect.attempt (Ledger.onLive GroupState.deferred
    (fun deferred state => { state with deferred }) fun queue =>
      commitHoldRosterWithoutView queue l.live.authority l.live.groupId control
        (input.providerState, input.providerEffect))
  match held with
  | .ok () => pure .rosterDeferred
  | .error .policy => refuse commitments input
  | .error .frozen => Effect.fail .frozen

/-- Commit a received invitation message; a refused one was already committed. -/
def invitationOutcome (outcome : α → GroupOutcome)
    (e : Effect (Ledger (DurableStore S) InvitationBook) GroupOperationError α) :
    Effect (Ledger (DurableStore S) GroupState) GroupOperationError GroupOutcome := do
  let result ← Effect.attempt (Ledger.onLive GroupState.book
    (fun book state => { state with book }) e)
  match result with
  | .ok answer => pure (outcome answer)
  | .error .policy => pure .refused
  | .error .frozen => Effect.fail .frozen

/-- Route a payload of an attached group by its own tag. -/
def routePayload (input : GroupReceiveInput) (now : UInt64) (payload : GroupPayload) :
    Effect (Ledger (DurableStore S) GroupState) GroupOperationError GroupOutcome := do
  let l ← Effect.get
  match payload, l.live.view, l.live.receiver with
  | .application context, some view, some receiver =>
    let disposition ← onDeferredState view receiver
      (commitGroupPayloadWithDeferred commitments input)
    match disposition with
    | .application disposition => pure (receiveOutcome disposition context)
    | .roster _ => Effect.fail .policy
  | .application _, _, _ => refuse commitments input
  | .roster _, some view, some receiver =>
    let disposition ← onDeferredState view receiver
      (commitGroupPayloadWithDeferred commitments input)
    match disposition with
    | .roster commit => rosterOutcome commitments commit
    | .application _ => Effect.fail .policy
  | .roster control, _, _ =>
    if input.authenticatedPeer ≠ l.live.authority then refuse commitments input
    else holdControl commitments input control
  | .invitationBootstrap _, _, _ =>
    if input.authenticatedPeer ≠ l.live.authority then refuse commitments input
    else
      invitationOutcome .invitation
        (commitGroupInvitationBootstrap commitments l.live.localMember now input)
  | .invitationAcceptance _, _, _ =>
    invitationOutcome .invitationStatus (commitGroupInvitationAcceptance commitments now input)
  | .invitationRevocation _, _, _ =>
    invitationOutcome .invitationStatus (commitGroupInvitationRevocation commitments
      l.live.localMember l.live.authority now input)

/-- Route one authenticated plaintext. -/
def route (input : GroupReceiveInput) (now : UInt64) :
    Effect (GroupClient C S) GroupError GroupOutcome := do
  let g ← Effect.get
  match GroupPayload.decode input.plaintext, g.group with
  | .ok payload, some state => onGroup state (routePayload commitments input now payload)
  | _, _ => onLedger (refuse commitments input)

end Route

/-! ### Delivery -/

/-- Commit one item and add what it did. -/
def commitItem (item : StagedItem) (now : UInt64) (inbound : Inbound) :
    Effect (GroupClient C S) GroupError Inbound :=
  match item.plaintext with
  | none =>
    if item.effect = .unchanged then pure { inbound with dropped := inbound.dropped + 1 }
    else do
      onLedger (commitMalformedGroupPayload commitments [] item.providerState item.effect)
      pure { inbound with dropped := inbound.dropped + 1 }
  | some plaintext =>
    if item.kind ≠ .group then do
      onLedger (commitProviderState item.providerState)
      pure { inbound with direct := inbound.direct ++ [⟨item.source, plaintext, item.kind⟩] }
    else
      match item.authenticatedIdentity with
      | none => do
        onLedger (commitMalformedGroupPayload commitments plaintext item.providerState item.effect)
        pure { inbound with items := inbound.items ++ [⟨item.source, .refused⟩] }
      | some identity => do
        let outcome ← route commitments
          ⟨plaintext, identity, item.peerDevice, item.providerState, item.effect⟩ now
        pure { inbound with items := inbound.items ++ [⟨item.source, outcome⟩] }

/-- Freeze the coordinator if a computation fails. -/
def poisoning (e : Effect (GroupClient C S) GroupError α) :
    Effect (GroupClient C S) GroupError α := do
  let result ← e.attempt
  match result with
  | .ok answer => pure answer
  | .error err => do
    Effect.modify fun g => { g with poisoned := true }
    Effect.fail err

end GroupClient

end Tacenta.Client
