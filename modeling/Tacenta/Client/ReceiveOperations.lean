import Tacenta.Client.RosterOperations

/-!
# Receiving group payloads

The commits of received items: the disposition of an application context with the provider state
that consumed it, an item that is refused, a provider state alone, and the delivery cursor.

## Main definitions

* `GroupReceiveInput`: a decrypted plaintext with what the provider says about it.
* `commitReceiveDisposition`, `commitMalformedGroupPayload`, `commitProviderState`,
  `commitDeliveryCursor`: the commits.
* `commitGroupPayloadWithDeferred`: the commit that the payload's own tag selects.
-/

open ByteString Result Tacenta.Group

namespace Tacenta.Client

variable {S σ : Type} [OperationStore S] (commitments : Commitments)

/-- A decrypted plaintext with what the provider says about it. -/
structure GroupReceiveInput where
  plaintext : Bytes
  /-- The identity that the provider authenticated. -/
  authenticatedIdentity : Bytes
  /-- The device of the crypto address. -/
  peerDevice : UInt8
  /-- The provider state after the item. -/
  providerState : Bytes
  /-- What the item did to it. -/
  providerEffect : CryptoStateEffect

def GroupReceiveInput.authenticatedPeer (input : GroupReceiveInput) : Member :=
  ⟨input.authenticatedIdentity, [input.peerDevice]⟩

/-- What a group payload did. -/
inductive GroupPayloadDisposition where
  | application (disposition : ReceiveDisposition)
  | roster (commit : RosterCommit)

/-! ### Single commits -/

/-- What `commitReceiveDisposition` publishes. -/
def receiveDispositionPlan (context : ApplicationContext) (authenticatedPeer : Member)
    (providerState : Bytes) (providerEffect : CryptoStateEffect) (store : S)
    (snapshot : OperationSnapshot) (receiver : GroupReceiver) :
    Except GroupOperationError (Plan GroupReceiver ReceiveDisposition) := do
  let contextBytes ← policy context.encode
  let commitment := commitments.payload contextBytes
  let (receiver, disposition) := receiver.receive context authenticatedPeer commitment
  let candidate ← beginCandidate store snapshot
  let applicationState ← policy receiver.encodeState
  let candidate ← recordReceive { candidate with providerState, applicationState } providerEffect
    contextBytes commitment disposition
  pure (.publish candidate receiver disposition)

/-- Commit the disposition of a context with the provider state that consumed it. -/
def commitReceiveDisposition (context : ApplicationContext) (authenticatedPeer : Member)
    (providerState : Bytes) (providerEffect : CryptoStateEffect) :
    Effect (Ledger S GroupReceiver) GroupOperationError ReceiveDisposition :=
  Ledger.publish (receiveDispositionPlan commitments context authenticatedPeer providerState
    providerEffect)

/-- What `commitProviderState` publishes. -/
def providerStatePlan (providerState : Bytes) (store : S) (snapshot : OperationSnapshot)
    (live : σ) : Except GroupOperationError (Plan σ Unit) := do
  let candidate ← beginCandidate store snapshot
  pure (.publish { candidate with providerState } live ())

/-- Commit a provider state that nothing else changes. -/
def commitProviderState (providerState : Bytes) :
    Effect (Ledger S σ) GroupOperationError Unit :=
  Ledger.publish (providerStatePlan providerState)

/-- What `commitMalformedGroupPayload` publishes. -/
def malformedGroupPayloadPlan (plaintext providerState : Bytes)
    (providerEffect : CryptoStateEffect) (store : S) (snapshot : OperationSnapshot) (live : σ) :
    Except GroupOperationError (Plan σ Unit) := do
  let candidate ← beginCandidate store snapshot
  let record ← encodeMalformedRecord commitments.payload providerEffect plaintext
  pure (.publish { candidate with
    providerState
    inbox := pushBounded candidate.inbox record maxInboxRecords } live ())

/-- Commit an item that is refused, with the provider state that consumed it. -/
def commitMalformedGroupPayload (plaintext providerState : Bytes)
    (providerEffect : CryptoStateEffect) : Effect (Ledger S σ) GroupOperationError Unit :=
  Ledger.publish (malformedGroupPayloadPlan commitments plaintext providerState providerEffect)

/-- What `commitDeliveryCursor` publishes. -/
def deliveryCursorPlan (cursor : UInt64) (store : S) (snapshot : OperationSnapshot) (live : σ) :
    Except GroupOperationError (Plan σ Unit) := do
  let candidate ← beginCandidate store snapshot
  pure (.publish { candidate with
    deliveryCursor := cursor
    inbox := candidate.inbox.map (scrubRecord cursor) } live ())

/-- Advance the delivery cursor and drop the contexts that it delivers. -/
def commitDeliveryCursor (cursor : UInt64) : Effect (Ledger S σ) GroupOperationError Unit :=
  Ledger.publish (deliveryCursorPlan cursor)

/-! ### Payloads -/

/-- Commit a refusal of the plaintext of an input. -/
def refuseInput (input : GroupReceiveInput) : Effect (Ledger S σ) GroupOperationError Unit :=
  commitMalformedGroupPayload commitments input.plaintext input.providerState input.providerEffect

/-- A received roster control as a transition. -/
def receivedTransition (input : GroupReceiveInput) (candidate : Roster) : RosterTransition where
  authenticatedAuthority := input.authenticatedPeer
  candidate := candidate
  provider := some (input.providerState, input.providerEffect)
  preparedControl := none
  admission := none
  applying := none

/-- Commit the state machine that the payload's tag selects, with the queue of held controls. -/
def commitGroupPayloadWithDeferred (input : GroupReceiveInput) :
    Effect (Ledger S DeferredState) GroupOperationError GroupPayloadDisposition :=
  match GroupPayload.decode input.plaintext with
  | .ok (.application context) => do
    let disposition ← Ledger.onLive DeferredState.receiver (fun receiver d => { d with receiver })
      (commitReceiveDisposition commitments context input.authenticatedPeer input.providerState
        input.providerEffect)
    pure (.application disposition)
  | .ok (.roster candidate) => do
    let commit ← Ledger.onLive DeferredState.toCommitState (fun live d => d.afterCommit live)
      fun l => commitRosterTransition commitments l (receivedTransition input candidate)
    pure (.roster commit)
  | _ => do
    refuseInput commitments input
    pure (.application (.rejected .malformed))

end Tacenta.Client
