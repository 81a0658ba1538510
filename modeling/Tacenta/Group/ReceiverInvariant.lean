import Tacenta.Group.ReceiveEvents
import Tacenta.Group.ReceiverCheckpoint
import Tacenta.Library.ReplayWindow

/-!
# Every reachable receiver state can be checkpointed

The rules that `decodeState` checks are invariants of `receive` and `installAcceptedRoster`, as long
as fewer events than the largest word have been issued. Every reachable state is therefore written
by `encodeState` and restored exactly by `decodeState`.

## Main definitions

* `GroupReceiver.StateInv`: the invariant of reachable states.
* `GroupReceiver.Call.Computed`: the commitments of a call are computed from the encodings.

## Main results

* `GroupReceiver.StateInv.machine`: every call preserves the invariant.
* `GroupReceiver.checkpoint_lossless`: checkpoints of reachable states are lossless and canonical.
-/

open ByteString Result

namespace Tacenta.Group

namespace GroupReceiver

variable (rosterCommitment payloadCommitment : Bytes → Digest)

/-- The commitments of a call are those of the encodings of its values. -/
def Call.Computed : Call → Prop
  | .receive d => payloadCommitment <$> d.context.encode = .ok d.commitment
  | .install roster digest => rosterCommitment <$> roster.encode = .ok digest

/-- The invariant of reachable states. -/
structure StateInv (r : GroupReceiver) : Prop where
  roster_valid : r.roster.Valid
  digest_eq : r.rosterDigest = rosterCommitment r.roster.layout
  local_valid : r.localMember.Valid
  accepted_of : ∀ item ∈ r.accepted, item.key.groupId = r.roster.groupId ∧
    item.key.revision = r.roster.revision ∧ item.key.sender ∈ r.roster.members
  accepted_keys : r.accepted.Pairwise fun a b => a.key ≠ b.key
  accepted_window : ∀ a ∈ r.accepted, ∀ b ∈ r.accepted, a.key.sender = b.key.sender →
    b.key.sequence.toNat < a.key.sequence.toNat + dedupWindow.toNat
  accepted_ids : r.nextEventId ≠ Word64.maxValue →
    (∀ item ∈ r.accepted, item.eventId < r.nextEventId) ∧
      r.accepted.Pairwise fun a b => a.eventId ≠ b.eventId
  deferred_under : ∀ item ∈ r.deferred,
    DeferredUnder r.roster r.localMember payloadCommitment item
  deferred_distinct : r.deferred.Pairwise fun a b => a.context.key ≠ b.context.key
  deferred_le : r.deferred.length ≤ maxDeferred
  terminal : Terminal r.roster r.localMember → r.accepted = [] ∧ r.deferred = []
  unlisted : UnlistedBounded r.roster r.deferred

variable {rosterCommitment payloadCommitment}

/-! ### Consequences -/

variable {r : GroupReceiver} {peer : Member} {context : ApplicationContext}

/-- At most a window's width of acceptances of one sender is remembered. -/
theorem StateInv.length_sender_le (h : r.StateInv rosterCommitment payloadCommitment)
    (sender : Member) :
    (r.accepted.filter fun item => item.key.sender = sender).length ≤ dedupWindow.toNat := by
  have hmem : ∀ {item}, item ∈ r.accepted.filter (fun item => item.key.sender = sender) →
      item ∈ r.accepted ∧ item.key.sender = sender := fun hitem => by
    simpa using List.mem_filter.mp hitem
  have hnodup : ((r.accepted.filter fun item => item.key.sender = sender).map
      fun item => item.key.sequence.toNat).Nodup := by
    refine List.pairwise_map.mpr ((h.accepted_keys.filter _).imp_of_mem ?_)
    intro a b ha hb hne hseq
    obtain ⟨ha, hasender⟩ := hmem ha
    obtain ⟨hb, hbsender⟩ := hmem hb
    obtain ⟨hagroup, harevision, -⟩ := h.accepted_of a ha
    obtain ⟨hbgroup, hbrevision, -⟩ := h.accepted_of b hb
    refine hne ?_
    cases hak : a.key
    cases hbk : b.key
    simp only [hak, hbk] at *
    rw [hagroup, hbgroup, harevision, hbrevision, hasender, hbsender, Word64.eq_iff.mpr hseq]
  rw [← List.length_map fun item : Accepted => item.key.sequence.toNat,
    ← List.toFinset_card_of_nodup hnodup]
  refine ReplayWindow.card_le_width fun m hm m' hm' => ?_
  obtain ⟨a, ha, rfl⟩ := List.mem_map.mp (List.mem_toFinset.mp hm)
  obtain ⟨b, hb, rfl⟩ := List.mem_map.mp (List.mem_toFinset.mp hm')
  exact h.accepted_window a (hmem ha).1 b (hmem hb).1 ((hmem ha).2.trans (hmem hb).2.symm)

/-- A list whose values fall into few classes, each of them short, is short. -/
private theorem length_le_mul {α β : Type} [DecidableEq β] {f : α → β} {bound : Nat} {ys : List β}
    {xs : List α} (hf : ∀ x ∈ xs, f x ∈ ys)
    (hle : ∀ y, (xs.filter fun x => f x = y).length ≤ bound) : xs.length ≤ ys.length * bound := by
  induction ys generalizing xs with
  | nil =>
    cases xs with
    | nil => exact Nat.zero_le _
    | cons x xs => exact absurd (hf x List.mem_cons_self) List.not_mem_nil
  | cons y ys ih =>
    have hsplit := List.length_eq_length_filter_add (l := xs) fun x => decide (f x = y)
    have hrest : (xs.filter fun x => !decide (f x = y)).length ≤ ys.length * bound := by
      refine ih (fun x hx => ?_) fun z => ?_
      · obtain ⟨hx, hne⟩ := List.mem_filter.mp hx
        exact (List.mem_cons.mp (hf x hx)).resolve_left (by simpa using hne)
      · refine (List.Sublist.length_le ?_).trans (hle z)
        exact List.Sublist.filter _ List.filter_sublist
    have hy := hle y
    rw [List.length_cons, Nat.succ_mul]
    omega

/-- A state of the invariant whose event counter is not exhausted is canonical. -/
theorem StateInv.canonical (h : r.StateInv rosterCommitment payloadCommitment)
    (hnext : r.nextEventId ≠ Word64.maxValue) :
    r.Canonical rosterCommitment payloadCommitment where
  roster_valid := h.roster_valid
  digest_eq := h.digest_eq
  local_valid := h.local_valid
  accepted_under item hitem :=
    ⟨(h.accepted_of item hitem).1, (h.accepted_of item hitem).2.1, (h.accepted_of item hitem).2.2,
      (h.accepted_ids hnext).1 item hitem⟩
  accepted_distinct := h.accepted_keys.and (h.accepted_ids hnext).2
  accepted_le := (length_le_mul (fun item hitem => (h.accepted_of item hitem).2.2)
    h.length_sender_le).trans (Nat.mul_le_mul_right _ h.roster_valid.members_le)
  deferred_under := h.deferred_under
  deferred_distinct := h.deferred_distinct
  deferred_le := h.deferred_le
  terminal := h.terminal
  unlisted := h.unlisted

/-! ### Steps -/

private theorem map_encode_eq_ok {c : ApplicationContext} {d : Digest} :
    payloadCommitment <$> c.encode = .ok d ↔ c.Valid ∧ d = payloadCommitment c.layout := by
  rw [map_eq_ok]
  constructor
  · rintro ⟨b, hb, rfl⟩
    obtain ⟨hv, rfl⟩ := ApplicationContext.encode_eq_ok_iff.mp hb
    exact ⟨hv, rfl⟩
  · rintro ⟨hv, rfl⟩
    exact ⟨c.layout, ApplicationContext.encode_of_valid hv, rfl⟩

theorem Addressed.not_terminal (h : r.Addressed context peer) :
    ¬Terminal r.roster r.localMember := by
  obtain ⟨hopen, hmem⟩ := isActive_iff.mp h.local_active
  rintro (hclosed | hn)
  · rw [hopen] at hclosed
    exact nomatch hclosed
  · exact hn hmem

theorem StateInv.remember (h : r.StateInv rosterCommitment payloadCommitment)
    (commitment : Digest) (ha : r.Admits context peer) :
    (r.remember context.key commitment).StateInv rosterCommitment payloadCommitment := by
  have hsublist := List.filter_sublist (l := r.accepted ++
      [(⟨context.key, commitment, r.nextEventId⟩ : Accepted)])
    (p := fun item => item.key.sender ≠ context.key.sender ∨
      item.key.revision ≠ context.key.revision ∨
        r.newestSequence context.key < Word64.saturatingAdd item.key.sequence dedupWindow)
  have hle (x : UInt64) :
      (Word64.saturatingAdd x dedupWindow).toNat ≤ x.toNat + dedupWindow.toNat := by
    rw [Word64.toNat_saturatingAdd]
    exact min_le_left _ _
  refine ⟨h.roster_valid, h.digest_eq, h.local_valid, ?_, ?_, ?_, ?_, h.deferred_under,
    h.deferred_distinct, h.deferred_le, fun ht => absurd ht ha.not_terminal, h.unlisted⟩
  · intro item hitem
    rcases (mem_remember.mp hitem).1 with hold | rfl
    · exact h.accepted_of item hold
    · exact ⟨ha.groupId_eq, ha.revision_eq, (isActive_iff.mp ha.sender_active).2⟩
  · refine List.Pairwise.sublist hsublist (List.pairwise_append.mpr ⟨h.accepted_keys,
      List.pairwise_singleton _ _, ?_⟩)
    intro item hitem new hnew
    obtain rfl := List.mem_singleton.mp hnew
    exact ha.fresh item hitem
  · intro a ha' b hb' hsame
    obtain ⟨haold, hakeep⟩ := mem_remember.mp ha'
    have hbold := (mem_remember.mp hb').1
    have hrevision {item : Accepted} (hitem : item ∈ r.accepted ∨
        item = ⟨context.key, commitment, r.nextEventId⟩) :
        item.key.revision = context.key.revision := by
      rcases hitem with hitem | rfl
      · exact (h.accepted_of item hitem).2.1.trans ha.revision_eq.symm
      · rfl
    by_cases hsender : a.key.sender = context.key.sender
    · obtain ⟨hk, hothers⟩ := hakeep hsender (hrevision haold)
      rcases hbold with hbold | rfl
      · exact (Word64.lt_iff.mp (hothers b (mem_fromSender.mpr
          ⟨hbold, hsame ▸ hsender, hrevision (Or.inl hbold)⟩))).trans_le (hle _)
      · exact (Word64.lt_iff.mp hk).trans_le (hle _)
    · rcases haold with haold | rfl
      · rcases hbold with hbold | rfl
        · exact h.accepted_window a haold b hbold hsame
        · exact absurd hsame hsender
      · exact absurd rfl hsender
  · intro hnext
    have hnext' : r.nextEventId.toNat + 1 < 2 ^ 64 := by
      have := Word64.ne_maxValue_iff.mp hnext
      change (Word64.saturatingAdd r.nextEventId 1).toNat < _ at this
      rw [Word64.toNat_saturatingAdd] at this
      have h1 : (1 : UInt64).toNat = 1 := rfl
      omega
    have hadd : (Word64.saturatingAdd r.nextEventId 1).toNat = r.nextEventId.toNat + 1 := by
      rw [Word64.toNat_saturatingAdd]
      have h1 : (1 : UInt64).toNat = 1 := rfl
      omega
    obtain ⟨hlt, hpair⟩ := h.accepted_ids (Word64.ne_maxValue_iff.mpr (by omega))
    constructor
    · intro item hitem
      change item.eventId < Word64.saturatingAdd r.nextEventId 1
      rw [Word64.lt_iff, hadd]
      rcases (mem_remember.mp hitem).1 with hold | rfl
      · have := Word64.lt_iff.mp (hlt item hold)
        omega
      · exact Nat.lt_succ_self _
    · refine List.Pairwise.sublist hsublist (List.pairwise_append.mpr ⟨hpair,
        List.pairwise_singleton _ _, ?_⟩)
      intro item hitem new hnew
      obtain rfl := List.mem_singleton.mp hnew
      intro heq
      have := Word64.lt_iff.mp (hlt item hitem)
      rw [heq] at this
      exact lt_irrefl _ this

/-- One more deferred context keeps the bound on unlisted senders. -/
private theorem UnlistedBounded.append (h : UnlistedBounded r.roster r.deferred)
    {commitment : Digest}
    (hslot : r.isActive context.sender = true ∨ r.unlistedSlotIsOpenTo context.sender = true) :
    UnlistedBounded r.roster (r.deferred ++ [⟨context, commitment⟩]) := by
  have happend : unlistedOf r.roster (r.deferred ++ [⟨context, commitment⟩]) =
      unlistedOf r.roster r.deferred ++ unlistedOf r.roster [⟨context, commitment⟩] :=
    List.filter_append _ _
  by_cases hactive : r.isActive context.sender = true
  · obtain ⟨hopen, hmem⟩ := isActive_iff.mp hactive
    have hnil : unlistedOf r.roster [⟨context, commitment⟩] = [] := by
      simp [unlistedOf, hopen, hmem]
    rw [hnil, List.append_nil] at happend
    exact ⟨happend ▸ h.length_le, happend ▸ h.identities⟩
  · obtain ⟨hlt, hidentity⟩ := unlistedSlotIsOpenTo_eq_true.mp (hslot.resolve_left hactive)
    have hone : unlistedOf r.roster [⟨context, commitment⟩] = [⟨context, commitment⟩] := by
      rw [isActive_iff, not_and] at hactive
      refine List.filter_cons_of_pos ?_
      rw [decide_eq_true_eq, or_iff_not_imp_left, Bool.not_eq_true]
      exact hactive
    constructor
    · rw [happend, hone, List.length_append, List.length_singleton]
      exact hlt
    · rw [happend, hone, List.pairwise_append]
      refine ⟨h.identities, List.pairwise_singleton _ _, fun item hitem new hnew => ?_⟩
      obtain rfl := List.mem_singleton.mp hnew
      exact hidentity item hitem

theorem StateInv.defer (h : r.StateInv rosterCommitment payloadCommitment) {commitment : Digest}
    (hcontext : payloadCommitment <$> context.encode = .ok commitment)
    (hd : r.Defers context peer) :
    StateInv rosterCommitment payloadCommitment
      { r with deferred := r.deferred ++ [⟨context, commitment⟩] } := by
  obtain ⟨hvalid, hcommitment⟩ := map_encode_eq_ok.mp hcontext
  refine ⟨h.roster_valid, h.digest_eq, h.local_valid, h.accepted_of, h.accepted_keys,
    h.accepted_window, h.accepted_ids, ?_, ?_, ?_, fun ht => absurd ht hd.not_terminal,
    h.unlisted.append hd.slot⟩
  · intro item hitem
    rcases List.mem_append.mp hitem with hitem | hitem
    · exact h.deferred_under item hitem
    · obtain rfl := List.mem_singleton.mp hitem
      exact ⟨hvalid, hd.groupId_eq, hd.recipient_eq, hd.ahead, hd.inRange, hcommitment⟩
  · refine List.pairwise_append.mpr ⟨h.deferred_distinct, List.pairwise_singleton _ _, ?_⟩
    intro item hitem new hnew
    obtain rfl := List.mem_singleton.mp hnew
    exact hd.fresh item hitem
  · rw [List.length_append, List.length_singleton]
    exact Nat.lt_of_le_of_ne h.deferred_le hd.room

theorem StateInv.deliver (h : r.StateInv rosterCommitment payloadCommitment) {d : Delivery}
    (hd : payloadCommitment <$> d.context.encode = .ok d.commitment) :
    (deliver r d).1.StateInv rosterCommitment payloadCommitment :=
  deliver_preserves (fun r _ => r.StateInv rosterCommitment payloadCommitment) [] h
    (h.remember d.commitment) (h.defer hd)

theorem StateInv.machine (h : r.StateInv rosterCommitment payloadCommitment) {call : Call}
    (hcall : call.Computed rosterCommitment payloadCommitment) :
    (machine r call).1.StateInv rosterCommitment payloadCommitment := by
  refine machine_preserves (fun r _ => r.StateInv rosterCommitment payloadCommitment) []
    (A := fun d => payloadCommitment <$> d.context.encode = .ok d.commitment)
    (fun _ _ _ hr hd => hr.deliver hd) ?_ h ?_ ?_
  · intro r _ hr item hitem
    have hunder := hr.deferred_under item hitem
    exact map_encode_eq_ok.mpr ⟨hunder.context_valid, hunder.commitment_eq⟩
  · rintro d rfl
    exact hcall
  · rintro roster digest rfl _
    obtain ⟨b, hb, rfl⟩ := map_eq_ok.mp hcall
    obtain ⟨hv, rfl⟩ := Roster.encode_eq_ok_iff.mp hb
    exact ⟨hv, rfl, h.local_valid, nofun, .nil, nofun, fun _ => ⟨nofun, .nil⟩, nofun, .nil,
      Nat.zero_le _, fun _ => ⟨rfl, rfl⟩, ⟨Nat.zero_le _, .nil⟩⟩

/-- Checkpoints of reachable states are lossless and canonical. For every run of a receiver whose
commitments are computed from the encodings: while fewer events than the largest word have been
issued, the state is encoded within the bound and restored exactly. Whatever bytes are restored are
the encoding of what they restore. At most 64 acceptances are remembered of each sender, at most
four contexts are deferred, at most two of them from unlisted senders and of distinct identities,
and nothing is kept once the roster is closed or does not list the local member. -/
theorem checkpoint_lossless {roster : Roster} {digest : Digest} {localMember : Member}
    {calls : List Call} (hroster : rosterCommitment <$> roster.encode = .ok digest)
    (hlocal : localMember.validate = .ok ())
    (hcalls : ∀ call ∈ calls, call.Computed rosterCommitment payloadCommitment) :
    let r := machine.run (new roster digest localMember) calls
    (r.eventsIssued < Word64.maxValue → ∃ b, r.encodeState = .ok b ∧ b.length ≤ 262144 ∧
      decodeState b rosterCommitment payloadCommitment = .ok r) ∧
    (∀ b s, decodeState b rosterCommitment payloadCommitment = .ok s → s.encodeState = .ok b) ∧
    (∀ sender, (r.accepted.filter fun item => item.key.sender = sender).length ≤ 64) ∧
    r.deferred.length ≤ 4 ∧ (unlistedOf r.roster r.deferred).length ≤ 2 ∧
    ((unlistedOf r.roster r.deferred).map fun item => item.context.sender.identity).Nodup ∧
    (r.roster.closed = true ∨ r.localMember ∉ r.roster.members →
      r.accepted = [] ∧ r.deferred = []) := by
  intro r
  have hnew : (new roster digest localMember).StateInv rosterCommitment payloadCommitment := by
    obtain ⟨b, hb, rfl⟩ := map_eq_ok.mp hroster
    obtain ⟨hv, rfl⟩ := Roster.encode_eq_ok_iff.mp hb
    exact ⟨hv, rfl, Member.validate_eq_ok_iff.mp hlocal, nofun, .nil, nofun,
      fun _ => ⟨nofun, .nil⟩, nofun, .nil, Nat.zero_le _, fun _ => ⟨rfl, rfl⟩,
      ⟨Nat.zero_le _, .nil⟩⟩
  have hinv : r.StateInv rosterCommitment payloadCommitment :=
    Machine.run_invariant _ (fun _ _ hs hcall => hs.machine hcall) hnew
      (Machine.along_of_forall hcalls)
  refine ⟨fun hissued => ?_, fun b s hs => ?_, hinv.length_sender_le, hinv.deferred_le,
    hinv.unlisted.length_le, List.pairwise_map.mpr hinv.unlisted.identities, hinv.terminal⟩
  · have hnext : r.nextEventId ≠ Word64.maxValue := by
      rintro h
      rw [eventsIssued, h] at hissued
      exact absurd hissued (by decide)
    have hc := hinv.canonical hnext
    exact ⟨r.stateLayout, encodeState_of_canonical hc, hc.length_stateLayout_le,
      decodeState_eq_ok_iff.mpr ⟨hc, rfl⟩⟩
  · obtain ⟨hc, rfl⟩ := decodeState_eq_ok_iff.mp hs
    exact encodeState_of_canonical hc

instance (call : Call) : Decidable (call.Computed rosterCommitment payloadCommitment) :=
  match call with
  | .receive d =>
    inferInstanceAs (Decidable (payloadCommitment <$> d.context.encode = .ok d.commitment))
  | .install roster digest =>
    inferInstanceAs (Decidable (rosterCommitment <$> roster.encode = .ok digest))

open Sample in
/-- A receiver that has accepted one message and deferred another is restored from its
checkpoint. -/
theorem checkpoint_lossless_sample :
    let roster := successor 1 (lengthCommitment genesis.layout) [alice, bob]
    let message (revision : UInt64) : ApplicationContext :=
      ⟨group, revision, lengthCommitment roster.layout, alice, bob, 7, []⟩
    let calls : List Call := [1, 2].map fun revision =>
      .receive ⟨message revision, alice, lengthCommitment (message revision).layout⟩
    let r := machine.run (new roster (lengthCommitment roster.layout) bob) calls
    r.accepted.length = 1 ∧ r.deferred.length = 1 ∧ ∃ b, r.encodeState = .ok b ∧
      b.length ≤ 262144 ∧ decodeState b lengthCommitment lengthCommitment = .ok r := by
  intro roster message calls r
  have hroster : lengthCommitment <$> roster.encode = .ok (lengthCommitment roster.layout) := by
    decide +kernel
  have hlocal : bob.validate = .ok () := by decide +kernel
  have hcalls : ∀ call ∈ calls, call.Computed lengthCommitment lengthCommitment := by
    decide +kernel
  exact ⟨by decide +kernel, by decide +kernel,
    (checkpoint_lossless hroster hlocal hcalls).1 (by decide +kernel)⟩

end GroupReceiver

end Tacenta.Group
