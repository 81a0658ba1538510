import Tacenta.Client.Disk
import Tacenta.Client.GroupState
import Tacenta.Client.OutboxRecovery

/-!
# Sequences are allocated once

A coordinator allocates the sequence of a new send as one more than the highest that its outbox
retains for the accepted revision. Compaction drops sends, but never the last one, and the last send
of the accepted revision has the highest sequence. Hence no message identifier is committed twice,
whatever the store does with a write and whenever the coordinator recovers.

## Main definitions

* `SendingSide`, `sendingStep`: the sending side of a coordinator over a store of one owner.
* `Allocated`: the identifiers committed so far are below what the outbox allocates next.

## Main results

* `committed_ids_nodup`: no two committed intents have the same revision, sender and sequence.
-/

open ByteString Records Result Tacenta.Group

namespace Tacenta.Client

/-! ### The sending side -/

/-- What a group was attached with. -/
structure Attachment where
  groupId : GroupId
  /-- The pinned authority. -/
  authority : Member
  /-- The roster that the group was attached from. -/
  source : Roster
  localMember : Member

/-- The sending side of a coordinator. -/
structure SendingSide where
  /-- The store, the snapshot and the live values. -/
  ledger : Ledger (DurableStore Disk) OutboxState
  /-- Whether a recovery was begun and not completed. -/
  poisoned : Bool

/-- Whether the calls are refused until a recovery. -/
def SendingSide.isFrozen (s : SendingSide) : Bool :=
  s.poisoned || OperationStore.isFrozen s.ledger.store

/-- Whether a call commits a logical intent. -/
def OutboxCall.isIntent : OutboxCall → Bool
  | .intent .. => true
  | _ => false

/-- What happens on the sending side: a new send, another commit of the group outbox, or a recovery,
which may fail to restore the provider state or to rebuild a part of the group. -/
inductive SendingCall where
  | send (recipients : List Member) (payload : Bytes)
  | commit (call : OutboxCall) (hcall : call.isIntent = false)
  | recover (restored rebuilt : Bool)

/-- A call, with what the store does meanwhile. -/
structure SendingInput where
  /-- The fates of the writes. -/
  fates : List Fate
  /-- Whether the store can be read. -/
  readable : Bool
  call : SendingCall

/-- The store as a call finds it. -/
def SendingSide.meet (s : SendingSide) (i : SendingInput) : SendingSide :=
  { s with ledger := { s.ledger with store := { s.ledger.store with
      inner := { s.ledger.store.inner with fates := i.fates, readable := i.readable } } } }

/-- The new send that the coordinator makes: the next sequence of the local member at the accepted
revision. -/
def newIntent (localMember : Member) (live : OutboxState) (recipients : List Member)
    (payload : Bytes) : Except GroupError LogicalSend := do
  let sequence ← refusedAs .policy
    (live.outbox.nextSequence live.view.roster.revision localMember)
  refusedAs .policy (LogicalSend.new live.view.roster live.view.digest localMember sequence
    recipients payload)

/-- The view and the outbox that a recovery rebuilds. -/
def rebuild (commitments : Commitments) (g : Attachment) (snapshot : OperationSnapshot) :
    Except GroupError (Option OutboxState) := do
  let view ← restoreView commitments snapshot g.groupId g.authority (some g.source)
  let outbox ← refusedAs .recovery (recoverGroupOutbox commitments.payload snapshot g.groupId)
  pure (view.map fun view => ⟨view, outbox⟩)

/-- Recover from the durable snapshot. The coordinator stays poisoned unless every step succeeds. -/
def SendingSide.recover (commitments : Commitments) (g : Attachment) (restored rebuilt : Bool)
    (s : SendingSide) : SendingSide :=
  match s.ledger.store.recoverNotBehind with
  | (store, .ok (some snapshot)) =>
    if restored then
      match rebuild commitments g snapshot with
      | .ok (some live) =>
        if rebuilt then ⟨⟨store, snapshot, live⟩, false⟩
        else ⟨⟨store, snapshot, s.ledger.live⟩, true⟩
      | _ => ⟨⟨store, snapshot, s.ledger.live⟩, true⟩
    else ⟨{ s.ledger with store }, true⟩
  | (store, _) => ⟨{ s.ledger with store }, true⟩

/-- Commit a new send; the answer is its identifier if its intent became durable. -/
def SendingSide.send (g : Attachment) (recipients : List Member) (payload : Bytes)
    (s : SendingSide) : SendingSide × Option LogicalMessageId :=
  match newIntent g.localMember s.ledger.live recipients payload with
  | .error _ => (s, none)
  | .ok send =>
    let ledger := (onOutbox s.ledger fun l => commitLogicalIntent l send).1
    ({ s with ledger },
      if s.ledger.store.inner.applied < ledger.store.inner.applied then some send.id else none)

/-- One call on the sending side. -/
def sendingStep (commitments : Commitments) (g : Attachment) :
    Machine SendingSide SendingInput (Option LogicalMessageId) := fun s i =>
  let s := s.meet i
  match i.call with
  | .send recipients payload => if s.isFrozen then (s, none) else s.send g recipients payload
  | .commit call _ =>
    if s.isFrozen then (s, none)
    else ({ s with ledger := (outboxStep commitments s.ledger call).1 }, none)
  | .recover restored rebuilt => (s.recover commitments g restored rebuilt, none)

/-- The identifiers of the committed intents. -/
def committedIds (log : List (SendingInput × Option LogicalMessageId)) : List LogicalMessageId :=
  log.filterMap Prod.snd

theorem committedIds_concat (log : List (SendingInput × Option LogicalMessageId)) (i : SendingInput)
    (answer : Option LogicalMessageId) :
    committedIds (log ++ [(i, answer)]) = committedIds log ++ answer.toList := by
  rw [committedIds, List.filterMap_append]
  cases answer <;> rfl

/-! ### What is committed -/

variable {commitments : Commitments} {g : Attachment} {ids : List LogicalMessageId}
  {snapshot candidate : OperationSnapshot} {live live' : OutboxState}

/-- The identifiers committed so far are the local member's, at revisions that the view has reached;
at the accepted revision they are not above the last send. -/
def Allocated (localMember : Member) (ids : List LogicalMessageId) (live : OutboxState) : Prop :=
  ∀ id ∈ ids, id.sender = localMember ∧ id.revision ≤ live.view.roster.revision ∧
    (id.revision = live.view.roster.revision → ∃ last, live.outbox.sends.getLast? = some last ∧
      last.id.revision = id.revision ∧ last.id.sender = localMember ∧
        id.sequence ≤ last.id.sequence)

/-- The view is the one that is rebuilt from the snapshot. -/
structure Checkpointed (commitments : Commitments) (g : Attachment) (snapshot : OperationSnapshot)
    (view : RosterView) : Prop where
  sound : SoundView commitments g.groupId g.authority view
  restored : restoreView commitments snapshot g.groupId g.authority (some g.source) =
    .ok (some view)
  single : ∃ latest : Option Bytes,
    snapshot.groupControls.filter (hasTag (ascii "TCGV")) = latest.toList

/-- The live values fit the snapshot and the identifiers committed so far. -/
structure Fits (commitments : Commitments) (g : Attachment) (ids : List LogicalMessageId)
    (snapshot : OperationSnapshot) (live : OutboxState) : Prop where
  mirrored : Mirrored commitments g.groupId snapshot live
  checkpointed : Checkpointed commitments g snapshot live.view
  allocated : Allocated g.localMember ids live

theorem Checkpointed.congr {view : RosterView} (h : Checkpointed commitments g snapshot view)
    (hcontrols : candidate.groupControls = snapshot.groupControls) :
    Checkpointed commitments g candidate view where
  sound := h.sound
  restored := (restoreView_congr (by rw [hcontrols])).trans h.restored
  single := by rw [hcontrols]; exact h.single

/-- An outbox that keeps the last send keeps the allocation. -/
theorem Allocated.retains {localMember : Member} {view : RosterView} {outbox outbox' : GroupOutbox}
    (h : Allocated localMember ids ⟨view, outbox⟩) (hretains : Retains outbox outbox') :
    Allocated localMember ids ⟨view, outbox'⟩ := by
  intro id hid
  obtain ⟨hsender, hle, hlast⟩ := h id hid
  refine ⟨hsender, hle, fun hrevision => ?_⟩
  obtain ⟨last, hsome, hrev, hsend, hseq⟩ := hlast hrevision
  obtain ⟨last', hsome', hid'⟩ := hretains last hsome
  exact ⟨last', hsome', by rw [hid', hrev], by rw [hid', hsend], by rwa [hid']⟩

/-- At a later revision nothing has been allocated. -/
theorem Allocated.later {localMember : Member} (h : Allocated localMember ids live)
    (hlater : live.view.roster.revision < live'.view.roster.revision) :
    Allocated localMember ids live' := by
  intro id hid
  obtain ⟨hsender, hle, -⟩ := h id hid
  rw [Word64.le_iff] at hle
  rw [Word64.lt_iff] at hlater
  refine ⟨hsender, Word64.le_iff.mpr (by omega), fun hrevision => ?_⟩
  rw [hrevision] at hle
  omega

private theorem newIntent_eq_ok {localMember : Member} {recipients : List Member} {payload : Bytes}
    {send : LogicalSend} (h : newIntent localMember live recipients payload = .ok send) :
    send.Fresh ∧ send.id.revision = live.view.roster.revision ∧ send.id.sender = localMember := by
  obtain ⟨sequence, -, h⟩ := bind_eq_ok.mp h
  have hnew := refusedAs_eq_ok.mp h
  refine ⟨LogicalSend.fresh_of_new hnew, ?_⟩
  simp only [LogicalSend.new, bind_eq_ok, LogicalMessageId.new_eq_ok_iff] at hnew
  obtain ⟨_, -, _, -, _, -, _, -, _, -, _, -, _, ⟨-, rfl⟩, hnew⟩ := hnew
  cases hnew
  exact ⟨rfl, rfl⟩

/-- What a committed send does to the identifiers: the new one is above those of its revision. -/
theorem Fits.send {S : Type} [OperationStore S] {store : S} {recipients : List Member}
    {payload : Bytes} {send : LogicalSend} {outbox : GroupOutbox} {a : OutboxDisposition}
    (h : Fits commitments g ids snapshot live)
    (hnew : newIntent g.localMember live recipients payload = .ok send)
    (hplan : logicalIntentPlan store snapshot live.outbox send =
      .ok (.publish candidate outbox a)) :
    Fits commitments g (ids ++ [send.id]) candidate { live with outbox } ∧
      ∀ id ∈ ids, id.revision = send.id.revision → id.sequence < send.id.sequence := by
  obtain ⟨hfresh, hrevision, hsender⟩ := newIntent_eq_ok hnew
  obtain ⟨-, hrecord, -, hcontrols⟩ := logicalIntentPlan_publish hplan
  obtain ⟨⟨-, -, -, hbelow, -⟩, rfl⟩ := GroupOutbox.insert_eq_inserted_iff.mp hrecord
  have hlt : ∀ id ∈ ids, id.revision = send.id.revision → id.sequence < send.id.sequence := by
    intro id hid hrev
    -- the last send before is below the new one
    obtain ⟨-, -, hlast⟩ := h.allocated id hid
    obtain ⟨last, hsome, hrev', hsender', hle⟩ := hlast (hrev.trans hrevision)
    have hlt := hbelow last (List.mem_of_getLast? hsome) (hrev'.trans hrev)
      (hsender'.trans hsender.symm)
    rw [Word64.le_iff] at hle
    rw [Word64.lt_iff] at hlt ⊢
    omega
  obtain ⟨hgroup, c, hc, hr⟩ := h.mirrored
  refine ⟨⟨⟨hgroup, c, hc, hr.intent hfresh hplan⟩, h.checkpointed.congr hcontrols, ?_⟩, hlt⟩
  intro id hid
  rcases List.mem_append.mp hid with hid | hid
  · obtain ⟨hsender', hle, -⟩ := h.allocated id hid
    exact ⟨hsender', hle, fun hrev => ⟨send, List.getLast?_concat, hrevision.trans hrev.symm,
      hsender, UInt64.le_of_lt (hlt id hid (hrev.trans hrevision.symm))⟩⟩
  · rw [List.mem_singleton.mp hid]
    exact ⟨hsender, hrevision ▸ UInt64.le_refl _,
      fun _ => ⟨send, List.getLast?_concat, rfl, hsender, UInt64.le_refl _⟩⟩

theorem Fits.advanced {outbox : GroupOutbox} (h : Fits commitments g ids snapshot live)
    (hplan : ∀ c, Recoverable commitments.payload g.groupId c snapshot live.outbox →
      Advanced commitments.payload g.groupId c snapshot live.outbox candidate outbox) :
    Fits commitments g ids candidate { live with outbox } := by
  obtain ⟨hgroup, c, hc, hr⟩ := h.mirrored
  have hadvanced := hplan c hr
  exact ⟨⟨hgroup, c, hc, hadvanced.recoverable⟩, h.checkpointed.congr hadvanced.groupControls_eq,
    h.allocated.retains hadvanced.retains⟩

theorem Fits.transition {state state' : RosterCommitState} {t : RosterTransition}
    {answer : RosterCommit} (h : Fits commitments g ids snapshot live)
    (hview : state.view = live.view) (houtbox : state.groupOutbox = some live.outbox)
    (ht : Transitioned commitments snapshot state t candidate state' answer) :
    Fits commitments g ids candidate ⟨state'.view, state'.groupOutbox.getD live.outbox⟩ := by
  obtain ⟨hgroup, c, hc, hr⟩ := h.mirrored
  obtain ⟨latest, hlatest⟩ := h.checkpointed.single
  obtain ⟨c', outbox', houtbox', hgroup', hc', hr'⟩ :=
    Recoverable.transition ht houtbox (hview ▸ hgroup) (hview ▸ hc) hr
  have hfilter := ht.filter_view hlatest
  have hsound : SoundView commitments g.groupId g.authority state'.view := by
    rcases ht.view_cases with ⟨-, hsame, -⟩ | ⟨-, -, hsucceeds, hnew⟩
    · rw [hsame, hview]
      exact h.checkpointed.sound
    · rw [hnew]
      exact h.checkpointed.sound.successor ht.valid (hview ▸ hsucceeds)
  refine ⟨⟨hgroup', c', hc', by rw [houtbox']; exact hr'⟩,
    ⟨hsound, restoreView_of_checkpoint hsound hfilter, some _, hfilter⟩, ?_⟩
  rcases ht.view_cases with ⟨-, hsame, hsame'⟩ | ⟨-, -, hsucceeds, hnew⟩
  · rw [hsame, hsame', hview, houtbox]
    exact h.allocated
  · refine h.allocated.later ?_
    have hnext := hsucceeds.revision_eq
    rw [hview] at hnext
    rw [hnew, Word64.lt_iff]
    dsimp only
    omega

/-! ### The invariant -/

/-- The revision, sender and sequence of an identifier. -/
def allocationKey (id : LogicalMessageId) : UInt64 × Member × UInt64 :=
  (id.revision, id.sender, id.sequence)

/-- The identifiers committed so far differ; the durable snapshot has live values that fit them, and
while the calls are not refused, they are those that the coordinator works with. -/
structure SendingInv (commitments : Commitments) (g : Attachment) (ids : List LogicalMessageId)
    (s : SendingSide) : Prop where
  nodup : (ids.map allocationKey).Nodup
  backed : ∃ snapshot live, s.ledger.store.inner.durable = some snapshot ∧
    Fits commitments g ids snapshot live ∧
      (s.isFrozen = false → s.ledger.snapshot = snapshot ∧ s.ledger.live = live)

variable {s : SendingSide}

theorem SendingInv.meet (h : SendingInv commitments g ids s) (i : SendingInput) :
    SendingInv commitments g ids (s.meet i) := ⟨h.nodup, h.backed⟩

/-- While the calls are not refused, the coordinator's values are the durable ones. -/
theorem SendingInv.own (h : SendingInv commitments g ids s) (hfrozen : s.isFrozen = false) :
    s.ledger.store.inner.durable = some s.ledger.snapshot ∧
      Fits commitments g ids s.ledger.snapshot s.ledger.live := by
  obtain ⟨snapshot, live, hdurable, hfits, hown⟩ := h.backed
  obtain ⟨rfl, rfl⟩ := hown hfrozen
  exact ⟨hdurable, hfits⟩

/-- A ledger whose durable snapshot is sound is the ledger of a sound sending side. -/
theorem SendingInv.of_backed {l : Ledger (DurableStore Disk) OutboxState} {poisoned : Bool}
    (hnodup : (ids.map allocationKey).Nodup) (h : l.Backed (Fits commitments g ids)) :
    SendingInv commitments g ids ⟨l, poisoned⟩ := by
  obtain ⟨snapshot, live, hdurable, hfits, hown⟩ := h
  exact ⟨hnodup, snapshot, live, hdurable, hfits, fun hfrozen =>
    hown (Bool.or_eq_false_iff.mp hfrozen).2⟩

/-- A commit of the outbox, on a ledger whose values are the durable ones. -/
private theorem onOutbox_backed {α : Type} {l : Ledger (DurableStore Disk) OutboxState}
    {P P' : OperationSnapshot → OutboxState → Prop}
    (hdurable : l.store.inner.durable = some l.snapshot) (hp : P l.snapshot l.live)
    (plan : DurableStore Disk → OperationSnapshot → GroupOutbox →
      Except GroupOperationError (Plan GroupOutbox α))
    (hplan : ∀ candidate outbox a, plan l.store l.snapshot l.live.outbox =
      .ok (.publish candidate outbox a) → P' candidate { l.live with outbox }) :
    let l' := (onOutbox l fun l => l.commit (plan l.store l.snapshot l.live)).1
    (l'.store.inner.applied = l.store.inner.applied ∧ l'.Backed P) ∨
      (l'.store.inner.applied = l.store.inner.applied + 1 ∧ l'.Backed P' ∧ ∃ candidate outbox a,
        plan l.store l.snapshot l.live.outbox = .ok (.publish candidate outbox a)) := by
  have hbacked : (l.withLive l.live.outbox).Backed fun snapshot outbox =>
      P snapshot { l.live with outbox } := .of_own hdurable hp
  rcases Ledger.commit_backed (fun snapshot outbox => P' snapshot { l.live with outbox })
    hbacked fun _ _ => hplan with ⟨happlied, hbacked⟩ | ⟨happlied, hbacked, hpublish⟩
  · exact .inl ⟨happlied, hbacked.withLive⟩
  · exact .inr ⟨happlied, hbacked.withLive, hpublish⟩

/-- A send keeps the invariant, with its identifier if its intent became durable. -/
private theorem SendingInv.send (h : SendingInv commitments g ids s) (hfrozen : s.isFrozen = false)
    (recipients : List Member) (payload : Bytes) :
    SendingInv commitments g (ids ++ (s.send g recipients payload).2.toList)
      (s.send g recipients payload).1 := by
  rw [SendingSide.send]
  split
  · rwa [Option.toList_none, List.append_nil]
  next send hnew =>
  obtain ⟨hdurable, hfits⟩ := h.own hfrozen
  have hcases := onOutbox_backed hdurable hfits (logicalIntentPlan · · · send)
    fun _ _ _ hpublish => (hfits.send hnew hpublish).1
  dsimp only [commitLogicalIntent] at hcases ⊢
  generalize (onOutbox s.ledger _).1 = ledger at hcases ⊢
  rcases hcases with ⟨happlied, hbacked⟩ | ⟨happlied, hbacked, _, _, _, hpublish⟩
  · rw [if_neg (Nat.not_lt_of_le happlied.le), Option.toList_none, List.append_nil]
    exact .of_backed h.nodup hbacked
  · rw [if_pos (Nat.lt_of_succ_le happlied.ge), Option.toList_some]
    refine .of_backed ?_ hbacked
    rw [List.map_append, List.map_singleton]
    refine List.Nodup.append h.nodup (List.nodup_singleton _) ?_
    rw [List.disjoint_singleton]
    intro hmem
    obtain ⟨id, hid, hkey⟩ := List.mem_map.mp hmem
    obtain ⟨hrevision, hrest⟩ := Prod.mk.inj hkey
    exact UInt64.ne_of_lt ((hfits.send hnew hpublish).2 id hid hrevision) (Prod.mk.inj hrest).2

/-- Another commit of the outbox keeps the invariant. -/
private theorem SendingInv.commit (h : SendingInv commitments g ids s)
    (hfrozen : s.isFrozen = false) {call : OutboxCall} (hcall : call.isIntent = false) :
    SendingInv commitments g ids
      { s with ledger := (outboxStep commitments s.ledger call).1 } := by
  obtain ⟨hdurable, hfits⟩ := h.own hfrozen
  suffices hbacked : (outboxStep commitments s.ledger call).1.Backed (Fits commitments g ids) from
    .of_backed h.nodup hbacked
  have honOutbox : ∀ {α : Type} (plan : DurableStore Disk → OperationSnapshot → GroupOutbox →
      Except GroupOperationError (Plan GroupOutbox α)),
      (∀ c candidate outbox a, Recoverable commitments.payload g.groupId c s.ledger.snapshot
          s.ledger.live.outbox → plan s.ledger.store s.ledger.snapshot s.ledger.live.outbox =
            .ok (.publish candidate outbox a) → Advanced commitments.payload g.groupId c
              s.ledger.snapshot s.ledger.live.outbox candidate outbox) →
      (onOutbox s.ledger fun l => l.commit (plan l.store l.snapshot l.live)).1.Backed
        (Fits commitments g ids) := fun plan hplan =>
    (onOutbox_backed hdurable hfits plan fun candidate outbox a hpublish =>
      hfits.advanced fun c hr => hplan c candidate outbox a hr hpublish).elim
        And.right fun h => h.2.1
  cases call with
  | intent => exact absurd hcall.symm Bool.false_ne_true
  | prepared id recipient ciphertext providerState =>
    exact honOutbox (outboxPreparedCiphertextPlan commitments.payload · · · id recipient ciphertext
      providerState) fun _ _ _ _ hr => hr.prepared
  | reservation id recipient =>
    exact honOutbox (outboxHandoffReservationPlan commitments.payload · · · id recipient)
      fun _ _ _ _ hr => hr.compacting compacting_handoff
  | acceptance id recipient =>
    exact honOutbox (outboxRelayAcceptancePlan commitments.payload · · · id recipient)
      fun _ _ _ _ hr => hr.compacting compacting_acceptance
  | roster t receiver controlOutbox invitationBook deferred logicalSends =>
    let state : RosterCommitState := ⟨s.ledger.live.view, receiver, some s.ledger.live.outbox,
      controlOutbox, invitationBook, deferred, logicalSends⟩
    let fits := fun snapshot (state : RosterCommitState) => Fits commitments g ids snapshot
      ⟨state.view, state.groupOutbox.getD s.ledger.live.outbox⟩
    have hbacked : (s.ledger.withLive state).Backed fits := .of_own hdurable hfits
    have hcommitted :
        (commitRosterTransition commitments (s.ledger.withLive state) t).1.Backed fits :=
      (Ledger.commit_backed fits hbacked fun _ _ candidate state' answer hpublish =>
        hfits.transition rfl rfl (rosterTransitionPlan_publish hpublish)).elim And.right
          fun h => h.2.1
    exact hcommitted.withLive

theorem Fits.rebuild (h : Fits commitments g ids snapshot live) :
    rebuild commitments g snapshot = .ok (some live) := by
  obtain ⟨-, c, -, entries, hs, hm⟩ := h.mirrored
  rw [Client.rebuild, h.checkpointed.restored, ok_bind,
    refusedAs_eq_ok.mpr (recoverGroupOutbox_eq hs hm), ok_bind]
  rfl

/-- A recovery keeps the invariant. -/
private theorem SendingInv.recover (h : SendingInv commitments g ids s) (restored rebuilt : Bool) :
    SendingInv commitments g ids (s.recover commitments g restored rebuilt) := by
  obtain ⟨snapshot, live, hdurable, hfits, -⟩ := h.backed
  obtain ⟨store, result, hrecover, hinner, hresult⟩ :=
    Disk.recoverNotBehind_cases s.ledger.store
  have hdurable' : store.inner.durable = some snapshot := by rw [hinner, hdurable]
  rw [SendingSide.recover, hrecover]
  rcases hresult with rfl | ⟨e, rfl⟩
  · dsimp only
    rw [hdurable]
    dsimp only
    rw [hfits.rebuild]
    cases restored <;> cases rebuilt
    case true.true => exact ⟨h.nodup, snapshot, live, hdurable', hfits, fun _ => ⟨rfl, rfl⟩⟩
    all_goals exact ⟨h.nodup, snapshot, live, hdurable', hfits, fun hfrozen =>
      absurd hfrozen.symm Bool.false_ne_true⟩
  · exact ⟨h.nodup, snapshot, live, hdurable', hfits, fun hfrozen =>
      absurd hfrozen.symm Bool.false_ne_true⟩

theorem SendingInv.step (h : SendingInv commitments g ids s) (i : SendingInput) :
    SendingInv commitments g (ids ++ (sendingStep commitments g s i).2.toList)
      (sendingStep commitments g s i).1 := by
  obtain ⟨fates, readable, call⟩ := i
  have hmet := h.meet ⟨fates, readable, call⟩
  cases call with
  | send recipients payload =>
    simp only [sendingStep]
    split
    · rwa [Option.toList_none, List.append_nil]
    · next hfrozen => exact hmet.send (Bool.eq_false_of_not_eq_true hfrozen) recipients payload
  | commit call hcall =>
    simp only [sendingStep]
    split
    · rwa [Option.toList_none, List.append_nil]
    · next hfrozen =>
      rw [Option.toList_none, List.append_nil]
      exact hmet.commit (Bool.eq_false_of_not_eq_true hfrozen) hcall
  | recover restored rebuilt =>
    simp only [sendingStep]
    rw [Option.toList_none, List.append_nil]
    exact hmet.recover restored rebuilt

/-- The sending side of a coordinator that has just attached a group on an empty snapshot. -/
def SendingSide.initial (generation : UInt64) (latch : Latch) (view : RosterView) :
    SendingSide where
  ledger := ⟨⟨⟨some (.empty generation), [], true, 0⟩, latch⟩, .empty generation, view,
    .new view.roster.groupId⟩
  poisoned := false

/-- **Sequences are allocated once.** A coordinator attaches a group, from a source roster, on an
empty snapshot. In any run of sends with the next sequence, commits of progress, roster transitions
and recoveries, whatever the store does with each write and whichever recoveries fail, no two
intents that became durable have the same revision, sender and sequence. -/
theorem committed_ids_nodup (commitments : Commitments) (g : Attachment) (generation : UInt64)
    (latch : Latch) (view : RosterView)
    (hview : sourceView commitments g.groupId g.authority g.source = .ok view)
    (inputs : List SendingInput) :
    ((committedIds ((sendingStep commitments g).log (.initial generation latch view)
      inputs)).map allocationKey).Nodup := by
  obtain ⟨hsound, -⟩ := sourceView_eq_ok hview
  have hrestored : restoreView commitments (.empty generation) g.groupId g.authority
      (some g.source) = .ok (some view) := by
    rw [restoreView.eq_def]
    exact congrArg (some <$> ·) hview
  have hfits : Fits commitments g [] (.empty generation) ⟨view, .new view.roster.groupId⟩ := by
    refine ⟨⟨hsound.groupId_eq, none, fun _ h => absurd h (Option.not_mem_none _), [], ⟨rfl, rfl⟩,
      ?_⟩, ⟨hsound, hrestored, none, rfl⟩, fun _ h => absurd h List.not_mem_nil⟩
    rw [hsound.groupId_eq]
    exact Mirrors.new _ _
  have hinit : SendingInv commitments g [] (.initial generation latch view) :=
    ⟨List.nodup_nil, _, _, rfl, hfits, fun _ => ⟨rfl, rfl⟩⟩
  refine (Machine.log_preserves (fun s log => SendingInv commitments g (committedIds log) s)
    (fun s past i h => ?_) hinit inputs).nodup
  rw [committedIds_concat]
  exact h.step i

section Sample

open Sample

/-- A send whose write is applied and reported as unknown, a recovery and another send. -/
private def sampleInputs : List SendingInput :=
  [⟨[⟨true, .unknown, fun _ => rfl⟩], true, .send [alice] [1]⟩, ⟨[], true, .recover true true⟩,
    ⟨[⟨true, .committed, fun _ => rfl⟩], true, .send [alice] [2]⟩]

theorem committed_ids_nodup_sample :
    let commitments : Commitments := ⟨lengthCommitment, lengthCommitment⟩
    let view : RosterView := ⟨genesis, lengthCommitment genesis.layout⟩
    let ids := (committedIds ((sendingStep commitments ⟨group, alice, genesis, alice⟩).log
      (.initial 0 (Latch.new.adopt (some (.empty 0))) view) sampleInputs)).map allocationKey
    sourceView commitments group alice genesis = .ok view ∧ ids.length = 2 ∧ ids.Nodup := by
  refine ⟨by decide +kernel, by decide +kernel, ?_⟩
  exact committed_ids_nodup ⟨lengthCommitment, lengthCommitment⟩ ⟨group, alice, genesis, alice⟩ 0
    (Latch.new.adopt (some (.empty 0))) ⟨genesis, lengthCommitment genesis.layout⟩
    (by decide +kernel) sampleInputs

end Sample

end Tacenta.Client
