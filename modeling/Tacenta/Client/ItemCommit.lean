import Tacenta.Client.Frames
import Tacenta.Group.PayloadCodec

/-!
# One durable root for received items

A received item is committed with the provider state that decrypting it left behind. However it is
routed, an item that was processed leaves that provider state in the snapshot that was committed
last, which is the coordinator's own; a refused one changes nothing else of the group, and a failure
freezes the coordinator.

## Main definitions

* `Recording`: a store that also remembers what it reported as committed.
* `Rooted`: the snapshot of a ledger is the one committed last, with a provider state.
* `Intact`, `RecoversAs`: nothing of the group changed, live and as recovered.

## Main results

* `ensures_routePayload`: what routing a payload leaves behind.
* `GroupClient.commitItem_root`: what processing an item leaves behind.
-/

open ByteString Records Result Tacenta.Group

namespace Tacenta.Client

/-! ### What was committed last -/

/-- A store that also remembers what it reported as committed. -/
structure Recording (S : Type) where
  /-- The store. -/
  inner : S
  /-- What it reported as committed, in order. -/
  committed : List OperationSnapshot

variable {S σ τ α : Type} [OperationStore S] {commitments : Commitments}

/-- Remember a write that was reported as committed. -/
def Recording.report (r : Recording S) (snapshot : OperationSnapshot)
    (written : S × CommitOutcome) : Recording S × CommitOutcome :=
  (⟨written.1, if written.2 = .committed then r.committed ++ [snapshot] else r.committed⟩,
    written.2)

instance Recording.instOperationStore : OperationStore (Recording S) where
  commit r snapshot := r.report snapshot (OperationStore.commit r.inner snapshot)
  recover r := ({ r with inner := (OperationStore.recover r.inner).1 },
    (OperationStore.recover r.inner).2)
  isFrozen r := OperationStore.isFrozen r.inner
  nextGeneration r := OperationStore.nextGeneration r.inner
  durableGeneration r := ({ r with inner := (OperationStore.durableGeneration r.inner).1 },
    (OperationStore.durableGeneration r.inner).2)
  commitAfter r expected snapshot :=
    r.report snapshot (OperationStore.commitAfter r.inner expected snapshot)

theorem getLast?_of_committed {d d' : DurableStore (Recording S)} {candidate : OperationSnapshot}
    (h : OperationStore.commit d candidate = (d', .committed)) :
    d'.inner.committed.getLast? = some candidate := by
  change d.commit candidate = (d', .committed) at h
  cases hfrozen : d.latch.frozen with
  | true =>
    rw [DurableStore.commit_of_frozen hfrozen] at h
    cases h
  | false =>
    rw [DurableStore.commit_of_not_frozen hfrozen rfl, Prod.mk.injEq] at h
    obtain ⟨rfl, houtcome⟩ := h
    change (OperationStore.commitAfter d.inner.inner d.latch.observed candidate).2 = .committed
      at houtcome
    change (if (OperationStore.commitAfter d.inner.inner d.latch.observed candidate).2 = .committed
      then d.inner.committed ++ [candidate] else d.inner.committed).getLast? = _
    rw [if_pos houtcome, List.getLast?_concat]

/-- A ledger over a store that remembers what was committed. -/
abbrev RecordedLedger (S σ : Type) := Ledger (DurableStore (Recording S)) σ

/-- The snapshot is the one committed last, with this provider state. -/
def Rooted (state : Bytes) (l : RecordedLedger S σ) : Prop :=
  l.store.inner.committed.getLast? = some l.snapshot ∧ l.snapshot.providerState = state

/-- Nothing of the group changed: neither the live value nor the records that it is rebuilt from. -/
structure Intact (l l' : RecordedLedger S σ) : Prop where
  live_eq : l'.live = l.live
  applicationState_eq : l'.snapshot.applicationState = l.snapshot.applicationState
  outbox_eq : l'.snapshot.outbox = l.snapshot.outbox
  groupControls_eq : l'.snapshot.groupControls = l.snapshot.groupControls

/-! ### Commits -/

/-- What the outcome of a commit tells: it succeeded, it was refused without a change, or the store
did not take it. -/
def Judged (Q : α → RecordedLedger S σ → Prop) (P : RecordedLedger S σ → Prop) :
    Except GroupOperationError α → RecordedLedger S σ → Prop
  | .ok a, l => Q a l
  | .error .policy, l => P l
  | .error .frozen, _ => True

/-- What a plan leads to, settled or once its candidate was committed. -/
def Leads (Q : α → RecordedLedger S σ → Prop) (l : RecordedLedger S σ) : Plan σ α → Prop
  | .settled a => Q a l
  | .publish candidate live a => ∀ store : DurableStore (Recording S),
      store.inner.committed.getLast? = some candidate → Q a ⟨store, candidate, live⟩

section Publish

variable (plan : DurableStore (Recording S) → OperationSnapshot → σ →
    Except GroupOperationError (Plan σ α)) {Q : α → RecordedLedger S σ → Prop} {state : Bytes}

theorem yields_publish {l : RecordedLedger S σ} {P : RecordedLedger S σ → Prop}
    (hrefused : plan l.store l.snapshot l.live = .error .policy → P l)
    (hplan : ∀ p, plan l.store l.snapshot l.live = .ok p → Leads Q l p) :
    Effect.Yields (· = l) (Ledger.publish plan) (Judged Q P) := by
  rintro s rfl
  have hcases := s.commit_cases (plan s.store s.snapshot s.live)
  rw [Ledger.publish]
  generalize s.commit _ = result at hcases ⊢
  cases hcases with
  | refused e h =>
    cases e with
    | policy => exact hrefused h
    | frozen => trivial
  | settled a h => exact hplan _ h
  | lost => trivial
  | committed candidate live a store h hstore =>
    exact hplan _ h store (getLast?_of_committed hstore)

/-- A commit of which only success matters. -/
theorem ensures_publish {P : RecordedLedger S σ → Prop}
    (hplan : ∀ l p, P l → plan l.store l.snapshot l.live = .ok p → Leads Q l p) :
    Effect.Ensures P (Ledger.publish plan) Q fun _ => True :=
  Effect.Ensures.of_forall fun l hl => (yields_publish (P := fun _ => True) plan (fun _ => trivial)
    fun p => hplan l p hl).ensures (fun _ _ h => h) fun _ _ _ => trivial

theorem sustains_publish (h : ∀ store snapshot live candidate live' a,
      plan store snapshot live = .ok (.publish candidate live' a) →
        candidate.providerState = snapshot.providerState) :
    Effect.Sustains (Rooted state) (Ledger.publish plan) := by
  refine ensures_publish plan fun l p hl hplan => ?_
  cases p with
  | settled => exact hl
  | publish => exact fun _ hlast => ⟨hlast, (h _ _ _ _ _ _ hplan).trans hl.2⟩

end Publish

/-! ### Refusals -/

variable {input : GroupReceiveInput} {l : RecordedLedger S σ}

/-- A payload that is short enough is not refused for its length. -/
theorem malformedGroupPayloadPlan_ne {plaintext providerState : Bytes} {effect : CryptoStateEffect}
    (h : plaintext.length < 2 ^ 32) :
    malformedGroupPayloadPlan commitments plaintext providerState effect l.store l.snapshot l.live ≠
      .error .policy := by
  have hrecord : encodeMalformedRecord commitments.payload effect plaintext =
      .ok (ascii "TCGM" ++ [effect.code] ++ u32Bytes plaintext.length.toUInt32 ++
        (commitments.payload plaintext).val) := by
    rw [encodeMalformedRecord, policy_eq_ok.mpr (putU32_eq_ok.mpr ⟨h, rfl⟩)]
    rfl
  intro hplan
  rcases bind_eq_error.mp hplan with hbegun | ⟨_, -, hplan⟩
  · exact beginCandidate_ne_policy hbegun
  · rw [hrecord] at hplan
    cases hplan

/-- A refused item leaves its provider state behind and nothing else of the group changed. -/
theorem yields_refuseInput :
    Effect.Yields (· = l) (refuseInput commitments input)
      (Judged (fun _ l' => Rooted input.providerState l' ∧ Intact l l')
        fun _ => 2 ^ 32 ≤ input.plaintext.length) := by
  refine yields_publish _ (fun h => ?_) fun p h => ?_
  · by_contra hlength
    exact malformedGroupPayloadPlan_ne (Nat.lt_of_not_le hlength) h
  · simp only [malformedGroupPayloadPlan, bind_eq_ok] at h
    obtain ⟨begun, hbegun, record, -, h⟩ := h
    obtain ⟨generation, rfl⟩ := beginCandidate_eq_ok hbegun
    cases h
    exact fun _ hlast => ⟨⟨hlast, rfl⟩, rfl, rfl, rfl, rfl⟩

/-- The postcondition of the commit of an invitation message: it is processed, or refused with
nothing else of the group changed. -/
abbrev JudgedInvitation (state : Bytes) (l : RecordedLedger S InvitationBook) :
    Except GroupOperationError α → RecordedLedger S InvitationBook → Prop :=
  Judged (fun _ l' => Rooted state l') fun l' => Rooted state l' ∧ Intact l l'

section Invitations

variable {l : RecordedLedger S InvitationBook} {now : UInt64}

theorem yields_commitInvalidInvitationControl (hlength : input.plaintext.length < 2 ^ 32) :
    Effect.Yields (· = l) (commitInvalidInvitationControl (α := α) commitments input)
      (JudgedInvitation input.providerState l) := by
  refine yields_refuseInput.bind (fun _ _ h => h) fun e l' h => ?_
  cases e with
  | policy => exact absurd h (Nat.not_le_of_lt hlength)
  | frozen => trivial

theorem yields_commitReceivedInvitation (hlength : input.plaintext.length < 2 ^ 32)
    (transition : InvitationBook → InvitationBook × Except Error α) :
    Effect.Yields (· = l) (commitReceivedInvitation commitments input transition)
      (JudgedInvitation input.providerState l) := by
  have hpublish : Effect.Yields (· = l) (commitGroupInvitationTransitionWithProvider
      (some (input.providerState, input.providerEffect)) transition)
        (Judged (fun _ l' => Rooted input.providerState l') (· = l)) := by
    refine yields_publish _ (fun _ => rfl) fun p h => ?_
    simp only [invitationTransitionPlan, bind_eq_ok, Prod.exists] at h
    obtain ⟨_, _, -, _, -, begun, -, _, -, h⟩ := h
    cases h
    exact fun _ hlast => ⟨hlast, rfl⟩
  refine hpublish.attempt_bind fun r => ?_
  rcases r with (_ | _) | a
  · exact yields_commitInvalidInvitationControl hlength
  · exact Effect.Yields.fail GroupOperationError.frozen
  · exact Effect.Yields.pure a

theorem length_lt_of_decode {b : Bytes} {payload : GroupPayload}
    (h : GroupPayload.decode b = .ok payload) : b.length < 2 ^ 32 := by
  obtain ⟨-, hle, rfl⟩ := GroupPayload.decode_eq_ok_iff.mp h
  exact hle.trans_lt (by decide)

theorem yields_bootstrap {localMember : Member} {bootstrap : InvitationBootstrap}
    (hdecode : GroupPayload.decode input.plaintext = .ok (.invitationBootstrap bootstrap)) :
    Effect.Yields (· = l) (commitGroupInvitationBootstrap commitments localMember now input)
      (JudgedInvitation input.providerState l) := by
  have hlength := length_lt_of_decode hdecode
  have hvalid : bootstrap.Valid := (GroupPayload.decode_eq_ok_iff.mp hdecode).1
  rw [commitGroupInvitationBootstrap, hdecode]
  dsimp only
  rw [Roster.encode_of_valid hvalid.sourceRoster_valid]
  change Effect.Yields _ (if _ then _ else _) _
  split
  · exact yields_commitInvalidInvitationControl hlength
  · exact yields_commitReceivedInvitation hlength _

theorem yields_acceptance {acceptance : InvitationAcceptance}
    (hdecode : GroupPayload.decode input.plaintext = .ok (.invitationAcceptance acceptance)) :
    Effect.Yields (· = l) (commitGroupInvitationAcceptance commitments now input)
      (JudgedInvitation input.providerState l) := by
  have hlength := length_lt_of_decode hdecode
  rw [commitGroupInvitationAcceptance, hdecode]
  refine Effect.Yields.get_bind fun m hm => ?_
  subst hm
  split
  · exact yields_commitInvalidInvitationControl hlength
  · exact yields_commitReceivedInvitation hlength _

theorem yields_revocation {localTarget sourceAuthority : Member} {revocation : InvitationRevocation}
    (hdecode : GroupPayload.decode input.plaintext = .ok (.invitationRevocation revocation)) :
    Effect.Yields (· = l)
      (commitGroupInvitationRevocation commitments localTarget sourceAuthority now input)
      (JudgedInvitation input.providerState l) := by
  have hlength := length_lt_of_decode hdecode
  rw [commitGroupInvitationRevocation, hdecode]
  refine Effect.Yields.get_bind fun m hm => ?_
  subst hm
  split
  · exact yields_commitInvalidInvitationControl hlength
  · exact yields_commitReceivedInvitation hlength _

end Invitations

/-! ### Roster controls -/

variable {ε : Type} {state : Bytes}

omit [OperationStore S] in
theorem sustains_onLive {part : τ → σ} {put : σ → τ → τ} {e : Effect (RecordedLedger S σ) ε α}
    (h : Effect.Sustains (Rooted state) e) :
    Effect.Sustains (Rooted state) (Ledger.onLive part put e) :=
  h.zoom (fun _ h => h) fun _ _ _ h => h

theorem sustains_commitRosterTransition (t : RosterTransition) (h : t.provider = none) :
    Effect.Sustains (Rooted state) fun l : RecordedLedger S RosterCommitState =>
      commitRosterTransition commitments l t := by
  refine sustains_publish (fun store snapshot live =>
    rosterTransitionPlan commitments store snapshot live t) fun _ _ _ _ _ _ hplan => ?_
  rw [(rosterTransitionPlan_publish hplan).providerState_eq, h]
  rfl

theorem sustains_commitNextDeferredRoster :
    Effect.Sustains (Rooted state)
      (commitNextDeferredRoster commitments :
        Effect (RecordedLedger S DeferredState) GroupOperationError (Option RosterCommit)) := by
  intro l hl
  rw [commitNextDeferredRoster]
  cases l.live.queue.nextFor l.live.view with
  | none => exact hl
  | some next =>
    have hsustains : Effect.Sustains (Rooted state) fun m : RecordedLedger S RosterCommitState =>
        commitRosterTransition commitments m (deferredTransition l.live.view next) :=
      sustains_commitRosterTransition _ rfl
    have hcommit := hsustains (l.withLive l.live.toCommitState) hl
    dsimp only at hcommit ⊢
    generalize commitRosterTransition commitments (l.withLive l.live.toCommitState)
      (deferredTransition l.live.view next) = result at hcommit ⊢
    rcases result with ⟨m, e | a⟩
    · trivial
    · exact hcommit

theorem sustains_drainLoop (fuel : Nat) :
    Effect.Sustains (Rooted state)
      (drainLoop commitments fuel :
        Effect (RecordedLedger S DeferredState) GroupOperationError (List GroupEvent)) := by
  induction fuel with
  | zero => exact .pure _
  | succ fuel ih =>
    refine sustains_commitNextDeferredRoster.bind fun next => ?_
    cases next with
    | none => exact .pure _
    | some commit => exact ih.bind fun _ => .pure _

theorem sustains_drainDeferred (groupId : GroupId) :
    Effect.Sustains (Rooted state)
      (drainDeferred commitments groupId :
        Effect (RecordedLedger S DeferredState) GroupOperationError (List GroupEvent)) := by
  refine .get_bind fun l _ => (sustains_drainLoop _).bind fun events => .get_bind fun l' _ => ?_
  refine Effect.Sustains.bind (sustains_onLive ?_) fun _ => .pure _
  refine sustains_publish (fun store snapshot live =>
    pruneDeferredRostersPlan store snapshot l'.live.view groupId live) fun _ _ _ _ _ _ h => ?_
  rw [pruneDeferredRostersPlan] at h
  split at h
  · cases h
  · simp only [bind_eq_ok] at h
    obtain ⟨begun, hbegun, _, -, h⟩ := h
    obtain ⟨generation, rfl⟩ := beginCandidate_eq_ok hbegun
    cases h
    rfl

theorem sustains_drainDeferredRosters :
    Effect.Sustains (Rooted state)
      (drainDeferredRosters commitments :
        Effect (RecordedLedger S GroupState) GroupOperationError (List GroupEvent)) := by
  refine .get_bind fun l _ => ?_
  cases l.live.view with
  | none => exact .pure _
  | some view =>
    cases l.live.receiver with
    | none => exact .pure _
    | some receiver => exact sustains_onLive (sustains_drainDeferred _)

/-! ### Routes -/

/-- A computation that succeeds leaves the provider state in the snapshot committed last. -/
def Roots {ε : Type} (state : Bytes) (e : Effect (RecordedLedger S σ) ε α) : Prop :=
  Effect.Ensures (fun _ => True) e (fun _ => Rooted state) fun _ => True

omit [OperationStore S] in
theorem roots_onLive {part : τ → σ} {put : σ → τ → τ} {e : Effect (RecordedLedger S σ) ε α}
    (h : Roots state e) :
    Roots state (Ledger.onLive part put e) := by
  refine Effect.Ensures.of_forall fun l _ => (Effect.Ensures.zoom h l trivial).conseq
    (fun _ h => h) ?_ fun _ _ => trivial
  rintro _ _ ⟨m, rfl, hm⟩
  exact hm

theorem roots_commitReceiveDisposition {context : ApplicationContext} {peer : Member}
    {effect : CryptoStateEffect} :
    Roots state (commitReceiveDisposition commitments context peer state effect :
      Effect (RecordedLedger S GroupReceiver) GroupOperationError ReceiveDisposition) := by
  refine ensures_publish _ fun _ _ _ h => ?_
  simp only [receiveDispositionPlan, bind_eq_ok] at h
  obtain ⟨_, -, begun, -, applicationState, -, logged, hlogged, h⟩ := h
  cases h
  refine fun _ hlast => ⟨hlast, ?_⟩
  rw [recordReceive_frame hlogged]

theorem roots_commitRosterTransition {control : Roster} :
    Roots input.providerState fun l : RecordedLedger S RosterCommitState =>
      commitRosterTransition commitments l (receivedTransition input control) := by
  refine ensures_publish (fun store snapshot live => rosterTransitionPlan commitments store
    snapshot live (receivedTransition input control)) fun _ p _ h => ?_
  cases p with
  | settled =>
    simp only [rosterTransitionPlan, bind_eq_ok, Prod.exists] at h
    obtain ⟨_, -, _, -, _, _, _, -, _, _, -, _, _, _, -, h⟩ := h
    cases h
  | publish => exact fun _ hlast => ⟨hlast, (rosterTransitionPlan_publish h).providerState_eq⟩

theorem roots_refuseInput :
    Roots input.providerState (refuseInput commitments input :
      Effect (RecordedLedger S σ) GroupOperationError Unit) :=
  Effect.Ensures.of_forall fun _ _ => yields_refuseInput.ensures (fun _ _ h => h.1)
    fun _ _ _ => trivial

theorem roots_commitGroupPayloadWithDeferred :
    Roots input.providerState (commitGroupPayloadWithDeferred commitments input :
      Effect (RecordedLedger S DeferredState) GroupOperationError GroupPayloadDisposition) := by
  have hrefused : Roots input.providerState (do
      refuseInput commitments input
      pure (.application (.rejected .malformed)) :
        Effect (RecordedLedger S DeferredState) GroupOperationError GroupPayloadDisposition) :=
    roots_refuseInput.bind fun _ _ h => h
  rw [commitGroupPayloadWithDeferred]
  cases GroupPayload.decode input.plaintext with
  | error e => exact hrefused
  | ok payload =>
    cases payload with
    | application context =>
      exact (roots_onLive roots_commitReceiveDisposition).bind fun _ _ h => h
    | roster control => exact (roots_onLive roots_commitRosterTransition).bind fun _ _ h => h
    | invitationBootstrap bootstrap => exact hrefused
    | invitationAcceptance acceptance => exact hrefused
    | invitationRevocation revocation => exact hrefused

/-- What routing a payload leaves behind. -/
def Routed (state : Bytes) (l : RecordedLedger S σ) (outcome : GroupOutcome)
    (l' : RecordedLedger S σ) : Prop :=
  Rooted state l' ∧ (outcome = .refused → Intact l l')

omit [OperationStore S] in
theorem ensures_routed {e : Effect (RecordedLedger S σ) ε α} (h : Roots state e)
    {f : α → Effect (RecordedLedger S σ) ε GroupOutcome}
    (hf : ∀ a, Effect.Ensures (Rooted state) (f a)
      (fun outcome l' => Rooted state l' ∧ outcome ≠ .refused) fun _ => True) :
    Effect.Ensures (· = l) (e >>= f) (Routed state l) fun _ => True :=
  (Effect.Ensures.bind h hf).conseq (fun _ _ => trivial)
    (fun _ _ h => ⟨h.1, fun hrefused => absurd hrefused h.2⟩) fun _ _ => trivial

theorem ensures_refuse :
    Effect.Ensures (· = l) (GroupClient.refuse commitments input) (Routed input.providerState l)
      fun _ => True :=
  (yields_refuseInput.ensures (fun _ _ h => ⟨h.1, fun _ => h.2⟩) fun _ _ _ => trivial).bind
    fun _ _ h => h

theorem receiveOutcome_ne_refused (disposition : ReceiveDisposition)
    (context : ApplicationContext) : GroupClient.receiveOutcome disposition context ≠ .refused := by
  cases disposition <;> exact GroupOutcome.noConfusion

theorem ensures_rosterOutcome (commit : RosterCommit) :
    Effect.Ensures (Rooted state)
      (GroupClient.rosterOutcome commitments commit :
        Effect (RecordedLedger S GroupState) GroupOperationError GroupOutcome)
      (fun outcome l' => Rooted state l' ∧ outcome ≠ .refused) fun _ => True := by
  rw [GroupClient.rosterOutcome]
  split
  · exact fun _ h => ⟨h, GroupOutcome.noConfusion⟩
  split
  · exact Effect.Ensures.bind sustains_drainDeferredRosters fun _ _ h =>
      ⟨h, GroupOutcome.noConfusion⟩
  · exact fun _ h => ⟨h, GroupOutcome.noConfusion⟩

section Group

variable {l : RecordedLedger S GroupState} {now : UInt64}

omit [OperationStore S] in
theorem ensures_invitationOutcome {outcome : α → GroupOutcome}
    (houtcome : ∀ a, outcome a ≠ .refused)
    {e : Effect (RecordedLedger S InvitationBook) GroupOperationError α} {state : Bytes}
    (h : Effect.Yields (· = l.withLive l.live.book) e
      (JudgedInvitation state (l.withLive l.live.book))) :
    Effect.Ensures (· = l) (GroupClient.invitationOutcome outcome e) (Routed state l)
      fun _ => True := by
  have hlive : Effect.Yields (· = l) (Ledger.onLive GroupState.book
      (fun book state => { state with book }) e)
        (Judged (fun _ l' => Rooted state l') fun l' => Rooted state l' ∧ Intact l l') := by
    refine Effect.Yields.zoom (h.conseq (fun _ h => h) fun r m hm => ?_)
    rcases r with (_ | _) | a
    · refine ⟨hm.1, ?_, hm.2.applicationState_eq, hm.2.outbox_eq, hm.2.groupControls_eq⟩
      change { l.live with book := m.live } = l.live
      rw [hm.2.live_eq]
      rfl
    · trivial
    · exact hm
  refine hlive.attempt_bind_ensures fun r => ?_
  rcases r with (_ | _) | a
  · exact fun _ h => ⟨h.1, fun _ => h.2⟩
  · exact fun _ _ => trivial
  · exact fun _ h => ⟨h, fun hrefused => absurd hrefused (houtcome a)⟩

theorem ensures_holdControl (control : Roster) :
    Effect.Ensures (· = l) (GroupClient.holdControl commitments input control)
      (Routed input.providerState l) fun _ => True := by
  refine Effect.Ensures.get_bind fun m hm => ?_
  subst hm
  have hhold : Effect.Yields (· = m.withLive m.live.deferred)
      (fun queue => commitHoldRosterWithoutView queue m.live.authority m.live.groupId control
        (input.providerState, input.providerEffect))
      (Judged (fun _ l' => Rooted input.providerState l') (· = m.withLive m.live.deferred)) := by
    refine yields_publish (fun store snapshot live => holdRosterWithoutViewPlan store snapshot live
      m.live.authority m.live.groupId control (input.providerState, input.providerEffect))
      (fun _ => rfl) fun p h => ?_
    simp only [holdRosterWithoutViewPlan, bind_eq_ok] at h
    obtain ⟨_, -, _, -, _, -, _, -, h⟩ := h
    cases h
    exact fun _ hlast => ⟨hlast, rfl⟩
  have hlive : Effect.Yields (· = m) (Ledger.onLive GroupState.deferred
      (fun deferred state => { state with deferred }) fun queue =>
        commitHoldRosterWithoutView queue m.live.authority m.live.groupId control
          (input.providerState, input.providerEffect))
      (Judged (fun _ l' => Rooted input.providerState l') (· = m)) := by
    refine Effect.Yields.zoom (hhold.conseq (fun _ h => h) fun r l' hl' => ?_)
    rcases r with (_ | _) | a
    · change l' = m.withLive m.live.deferred at hl'
      subst hl'
      rfl
    · trivial
    · exact hl'
  refine hlive.attempt_bind_ensures fun r => ?_
  rcases r with (_ | _) | a
  · exact ensures_refuse
  · exact fun _ _ => trivial
  · exact fun _ h => ⟨h, fun hrefused => GroupOutcome.noConfusion hrefused⟩

/-- Routing a payload leaves the provider state of the item in the snapshot committed last, and a
refusal changes nothing else of the group. -/
theorem ensures_routePayload {payload : GroupPayload}
    (hdecode : GroupPayload.decode input.plaintext = .ok payload) :
    Effect.Ensures (· = l) (GroupClient.routePayload commitments input now payload)
      (Routed input.providerState l) fun _ => True := by
  refine Effect.Ensures.get_bind fun m hm => ?_
  subst hm
  cases payload with
  | application context =>
    cases m.live.view with
    | none => exact ensures_refuse
    | some view =>
      cases m.live.receiver with
      | none => exact ensures_refuse
      | some receiver =>
        refine ensures_routed (roots_onLive roots_commitGroupPayloadWithDeferred) fun d => ?_
        cases d with
        | application d => exact fun _ h => ⟨h, receiveOutcome_ne_refused d context⟩
        | roster commit => exact fun _ _ => trivial
  | roster control =>
    have hunviewed : Effect.Ensures (· = m)
        (if input.authenticatedPeer ≠ m.live.authority then GroupClient.refuse commitments input
          else GroupClient.holdControl commitments input control)
        (Routed input.providerState m) fun _ => True := by
      split
      · exact ensures_refuse
      · exact ensures_holdControl control
    cases m.live.view with
    | none => exact hunviewed
    | some view =>
      cases m.live.receiver with
      | none => exact hunviewed
      | some receiver =>
        refine ensures_routed (roots_onLive roots_commitGroupPayloadWithDeferred) fun d => ?_
        cases d with
        | application d => exact fun _ _ => trivial
        | roster commit => exact ensures_rosterOutcome commit
  | invitationBootstrap bootstrap =>
    change Effect.Ensures _ (if _ then _ else _) _ _
    split
    · exact ensures_refuse
    · exact ensures_invitationOutcome (fun _ => GroupOutcome.noConfusion) (yields_bootstrap hdecode)
  | invitationAcceptance acceptance =>
    exact ensures_invitationOutcome (fun _ => GroupOutcome.noConfusion) (yields_acceptance hdecode)
  | invitationRevocation revocation =>
    exact ensures_invitationOutcome (fun _ => GroupOutcome.noConfusion) (yields_revocation hdecode)

end Group

/-! ### Items -/

/-- The values of a group are recovered from one snapshot as from another. -/
structure RecoversAs (commitments : Commitments) (snapshot snapshot' : OperationSnapshot) :
    Prop where
  view : ∀ authority, recoverGroupRosterView commitments snapshot' authority =
    recoverGroupRosterView commitments snapshot authority
  receiver : recoverGroupReceiver commitments snapshot' = recoverGroupReceiver commitments snapshot
  outbox : ∀ groupId, recoverGroupOutbox commitments.payload snapshot' groupId =
    recoverGroupOutbox commitments.payload snapshot groupId
  control : recoverGroupControlOutbox commitments snapshot' =
    recoverGroupControlOutbox commitments snapshot
  book : ∀ groupId, recoverGroupInvitationBook snapshot' groupId =
    recoverGroupInvitationBook snapshot groupId
  deferred : ∀ groupId authority, recoverGroupDeferredRosters snapshot' groupId authority =
    recoverGroupDeferredRosters snapshot groupId authority

omit [OperationStore S] in
theorem Intact.recoversAs {l l' : RecordedLedger S σ} (h : Intact l l') :
    RecoversAs commitments l.snapshot l'.snapshot where
  view _ := by rw [recoverGroupRosterView, recoverGroupRosterView, h.groupControls_eq]
  receiver := by rw [recoverGroupReceiver, recoverGroupReceiver, h.applicationState_eq]
  outbox _ := by
    simp only [recoverGroupOutbox, h.groupControls_eq, h.outbox_eq]
  control := by rw [recoverGroupControlOutbox, recoverGroupControlOutbox, h.groupControls_eq]
  book _ := by rw [recoverGroupInvitationBook, recoverGroupInvitationBook, h.groupControls_eq]
  deferred _ _ := by
    rw [recoverGroupDeferredRosters, recoverGroupDeferredRosters, h.groupControls_eq]

namespace GroupClient

variable {C : Type} {g : GroupClient C (Recording S)}

/-- What an item leaves behind: its provider state in the coordinator's snapshot, which is the one
committed last, and if it was refused nothing else of the group changed. -/
structure Processed (commitments : Commitments) (state : Bytes) (g : GroupClient C (Recording S))
    (outcome : Option GroupOutcome) (g' : GroupClient C (Recording S)) : Prop where
  committed : g'.store.inner.committed.getLast? = some g'.snapshot
  providerState_eq : g'.snapshot.providerState = state
  unchanged : outcome = some .refused →
    g'.group = g.group ∧ RecoversAs commitments g.snapshot g'.snapshot

omit [OperationStore S] in
theorem ensures_onLedger (commitments : Commitments)
    {e : Effect (RecordedLedger S Unit) GroupOperationError α} {state : Bytes}
    (outcome : α → Option GroupOutcome)
    (h : Effect.Ensures (· = ⟨g.store, g.snapshot, ()⟩) e
      (fun a l' => Rooted state l' ∧
        (outcome a = some .refused → Intact ⟨g.store, g.snapshot, ()⟩ l')) fun _ => True) :
    Effect.Ensures (· = g) (onLedger e) (fun a => Processed commitments state g (outcome a))
      fun _ => True := by
  refine ((h.mapError _).zoom g rfl).conseq (fun _ h => h) ?_ fun _ _ => trivial
  rintro a _ ⟨l', rfl, hroot, hrefused⟩
  exact ⟨hroot.1, hroot.2, fun houtcome => ⟨rfl, (hrefused houtcome).recoversAs⟩⟩

omit [OperationStore S] in
theorem ensures_onGroup {state : GroupState} (hgroup : g.group = some state)
    {e : Effect (RecordedLedger S GroupState) GroupOperationError GroupOutcome}
    {providerState : Bytes} (h : Effect.Ensures (· = ⟨g.store, g.snapshot, state⟩) e
      (Routed providerState ⟨g.store, g.snapshot, state⟩) fun _ => True) :
    Effect.Ensures (· = g) (onGroup state e)
      (fun outcome => Processed commitments providerState g (some outcome)) fun _ => True := by
  refine ((h.mapError _).zoom g rfl).conseq (fun _ h => h) ?_ fun _ _ => trivial
  rintro outcome _ ⟨l', rfl, hroot, hrefused⟩
  refine ⟨hroot.1, hroot.2, fun houtcome => ?_⟩
  have hintact := hrefused (Option.some_inj.mp houtcome)
  refine ⟨?_, hintact.recoversAs⟩
  rw [hgroup]
  exact congrArg some hintact.live_eq

theorem ensures_onLedger_refuse :
    Effect.Ensures (· = g) (onLedger (refuse commitments input))
      (fun outcome => Processed commitments input.providerState g (some outcome)) fun _ => True :=
  ensures_onLedger commitments some <| ensures_refuse.conseq (fun _ h => h)
    (fun _ _ h => ⟨h.1, fun houtcome => h.2 (Option.some_inj.mp houtcome)⟩) fun _ _ => trivial

theorem ensures_route {now : UInt64} :
    Effect.Ensures (· = g) (route commitments input now)
      (fun outcome => Processed commitments input.providerState g (some outcome))
      fun _ => True := by
  refine Effect.Ensures.get_bind fun m hm => ?_
  subst hm
  cases hdecode : GroupPayload.decode input.plaintext with
  | error e => exact ensures_onLedger_refuse
  | ok payload =>
    cases hgroup : m.group with
    | none => exact ensures_onLedger_refuse
    | some state => exact ensures_onGroup hgroup (ensures_routePayload hdecode)

theorem ensures_commitItem (commitments : Commitments) (item : StagedItem) {plaintext : Bytes}
    (hplaintext : item.plaintext = some plaintext) (now : UInt64) (inbound : Inbound) :
    Effect.Ensures (· = g) (commitItem commitments item now inbound)
      (fun inbound' g' => ∃ outcome, Processed commitments item.providerState g outcome g' ∧
        inbound'.items = inbound.items ++ outcome.toList.map fun o => ⟨item.source, o⟩)
      fun _ => True := by
  rw [commitItem, hplaintext]
  dsimp only
  split
  · have hroots : Roots item.providerState (commitProviderState item.providerState :
        Effect (RecordedLedger S Unit) GroupOperationError Unit) := by
      refine ensures_publish _ fun _ _ _ h => ?_
      obtain ⟨_, -, h⟩ := bind_eq_ok.mp h
      cases h
      exact fun _ hlast => ⟨hlast, rfl⟩
    refine Effect.Ensures.bind (ensures_onLedger commitments (fun _ => none) <| hroots.conseq
      (fun _ _ => trivial) (fun _ _ h => ⟨h, fun houtcome => absurd houtcome (by simp)⟩)
      fun _ _ => trivial) fun _ _ h => ?_
    exact ⟨none, h, (List.append_nil _).symm⟩
  · cases item.authenticatedIdentity with
    | none =>
      -- the same commit as for a refused input
      have hrefused : Effect.Yields (· = ⟨g.store, g.snapshot, ()⟩) (refuseInput commitments
          ⟨plaintext, [], 0, item.providerState, item.effect⟩) _ := yields_refuseInput
      refine Effect.Ensures.bind (ensures_onLedger commitments (fun _ => some .refused) <|
        hrefused.ensures (fun _ _ h => ⟨h.1, fun _ => h.2⟩) fun _ _ _ => trivial) fun _ _ h => ?_
      exact ⟨some .refused, h, rfl⟩
    | some identity =>
      exact ensures_route.bind fun outcome _ h => ⟨some outcome, h, rfl⟩

/-- One durable root: whatever an item with a plaintext is, processing it leaves exactly its
provider state in the snapshot committed last, which is the coordinator's own. A refused item
changes nothing of the group, live or as recovered, and a failure freezes the coordinator. -/
theorem commitItem_root (commitments : Commitments) (g : GroupClient C (Recording S))
    (item : StagedItem) (plaintext : Bytes) (now : UInt64) (inbound : Inbound) :
    (∀ g' inbound', commitItem commitments { item with plaintext := some plaintext } now inbound g =
        (g', .ok inbound') →
      g'.store.inner.committed.getLast? = some g'.snapshot ∧
        g'.snapshot.providerState = item.providerState ∧
          (inbound'.items = inbound.items ++ [⟨item.source, .refused⟩] →
            g'.group = g.group ∧ RecoversAs commitments g.snapshot g'.snapshot)) ∧
    ∀ g' e, poisoning (commitItem commitments { item with plaintext := some plaintext } now inbound)
      g = (g', .error e) → g'.isFrozen = true := by
  constructor
  · intro g' inbound' h
    have hafter := ensures_commitItem commitments { item with plaintext := some plaintext } rfl now
      inbound g rfl
    rw [h] at hafter
    obtain ⟨outcome, hprocessed, hitems⟩ := hafter
    refine ⟨hprocessed.committed, hprocessed.providerState_eq, fun hrefused => ?_⟩
    refine hprocessed.unchanged ?_
    rw [hitems, List.append_cancel_left_eq] at hrefused
    cases outcome with
    | none => cases hrefused
    | some outcome =>
      obtain ⟨-, rfl⟩ := GroupReceipt.mk.inj (List.cons.inj hrefused).1
      rfl
  · intro g' e h
    have hfrozen : Effect.Yields (fun _ => True) (poisoning (commitItem commitments
        { item with plaintext := some plaintext } now inbound))
          (fun r (g' : GroupClient C (Recording S)) => r.isOk = false → g'.isFrozen = true) := by
      refine Effect.Yields.attempt_bind (Q := fun _ _ => True) (fun _ _ => trivial) fun r => ?_
      cases r with
      | ok answer => exact fun _ _ h => Bool.noConfusion h
      | error e => exact fun _ _ _ => rfl
    have hafter := hfrozen g trivial
    rw [h] at hafter
    exact hafter rfl

end GroupClient

end Tacenta.Client
