import Tacenta.Group.Receive

/-!
# The checkpoint of a receiver

`decodeState` checks a long list of structural rules. They are collected in the predicate
`Canonical`; a checkpoint is restored exactly if it is the layout of a canonical state, and every
canonical state is written as its layout. The format is therefore lossless and canonical.

## Main definitions

* `GroupReceiver.Canonical`: the states that checkpoints restore.
* `GroupReceiver.stateLayout`: the bytes of a checkpoint.

## Main results

* `GroupReceiver.decodeState_eq_ok_iff`, `GroupReceiver.encodeState_of_canonical`.
* `GroupReceiver.Canonical.length_stateLayout_le`: a canonical state fits in a checkpoint.
-/

open ByteString Reader Result

namespace Tacenta.Group

/-- The bytes of a remembered acceptance. -/
def Accepted.layout (item : Accepted) : Bytes :=
  u64Bytes item.key.revision ++ (item.key.sender.layout ++ (u64Bytes item.key.sequence ++
    (item.commitment.val ++ u64Bytes item.eventId)))

def Deferred.layout (item : Deferred) : Bytes := lpBytes item.context.layout ++ item.commitment.val

namespace GroupReceiver

/-- The receiver refuses every context: the roster is closed or does not list the local member. -/
def Terminal (roster : Roster) (localMember : Member) : Prop :=
  roster.closed = true ∨ localMember ∉ roster.members

/-- A remembered acceptance of the installed roster, with an id below the next one. -/
structure AcceptedUnder (roster : Roster) (nextEventId : UInt64) (item : Accepted) : Prop where
  groupId_eq : item.key.groupId = roster.groupId
  revision_eq : item.key.revision = roster.revision
  sender_mem : item.key.sender ∈ roster.members
  eventId_lt : item.eventId < nextEventId

/-- A context for the local member that is ahead of the roster, with its own commitment. -/
structure DeferredUnder (roster : Roster) (localMember : Member)
    (payloadCommitment : Bytes → Digest) (item : Deferred) : Prop where
  context_valid : item.context.Valid
  groupId_eq : item.context.groupId = roster.groupId
  recipient_eq : item.context.recipient = localMember
  ahead : roster.revision < item.context.revision
  inRange : item.context.revision ≤ Word64.saturatingAdd roster.revision futureRevisions
  commitment_eq : item.commitment = payloadCommitment item.context.layout

/-- At most two unlisted contexts, of distinct identities. -/
structure UnlistedBounded (roster : Roster) (deferred : List Deferred) : Prop where
  length_le : (unlistedOf roster deferred).length ≤ maxDeferredUnlisted
  identities : (unlistedOf roster deferred).Pairwise fun earlier item =>
    earlier.context.sender.identity ≠ item.context.sender.identity

/-- The rules that a checkpoint is checked for. -/
structure Canonical (rosterCommitment payloadCommitment : Bytes → Digest) (r : GroupReceiver) :
    Prop where
  roster_valid : r.roster.Valid
  digest_eq : r.rosterDigest = rosterCommitment r.roster.layout
  local_valid : r.localMember.Valid
  accepted_under : ∀ item ∈ r.accepted, AcceptedUnder r.roster r.nextEventId item
  accepted_distinct : r.accepted.Pairwise fun a b => a.key ≠ b.key ∧ a.eventId ≠ b.eventId
  accepted_le : r.accepted.length ≤ maxMembers * dedupWindow.toNat
  deferred_under : ∀ item ∈ r.deferred,
    DeferredUnder r.roster r.localMember payloadCommitment item
  deferred_distinct : r.deferred.Pairwise fun a b => a.context.key ≠ b.context.key
  deferred_le : r.deferred.length ≤ maxDeferred
  terminal : Terminal r.roster r.localMember → r.accepted = [] ∧ r.deferred = []
  unlisted : UnlistedBounded r.roster r.deferred

/-- The bytes of a checkpoint. -/
def stateLayout (r : GroupReceiver) : Bytes :=
  receiverStateDomain ++ (lpBytes r.roster.layout ++ (r.rosterDigest.val ++ (r.localMember.layout ++
    (u64Bytes r.nextEventId ++ (u32Bytes r.accepted.length.toUInt32 ++
      (r.accepted.flatMap Accepted.layout ++ (u32Bytes r.deferred.length.toUInt32 ++
        r.deferred.flatMap Deferred.layout)))))))

variable {rosterCommitment payloadCommitment : Bytes → Digest}

/-! ### Sizes -/

variable {r : GroupReceiver} {s rest : Bytes} {roster : Roster}

theorem Canonical.sender_valid (h : r.Canonical rosterCommitment payloadCommitment)
    {item : Accepted} (hitem : item ∈ r.accepted) : item.key.sender.Valid :=
  h.roster_valid.members_valid _ (h.accepted_under item hitem).sender_mem

/-- A canonical state fits in a checkpoint. -/
theorem Canonical.length_stateLayout_le (h : r.Canonical rosterCommitment payloadCommitment) :
    r.stateLayout.length ≤ maxReceiverStateLen := by
  have hdomain : receiverStateDomain.length = 31 := by decide
  have hroster : r.roster.layout.length ≤ 4096 :=
    r.roster.length_layout ▸ h.roster_valid.encodedLen_le
  have hlocal := h.local_valid.memberLen_le
  have haccepted : (r.accepted.flatMap Accepted.layout).length ≤ 384 * r.accepted.length :=
    length_flatMap_le fun item hitem => by
      have := (h.sender_valid hitem).memberLen_le
      simp only [Accepted.layout, List.length_append, length_u64Bytes, Member.length_layout,
        FixedBytes.length_val, digestLen]
      omega
  have hdeferred : (r.deferred.flatMap Deferred.layout).length ≤ 2084 * r.deferred.length :=
    length_flatMap_le fun item hitem => by
      have hlen : item.context.layout.length ≤ 2048 :=
        item.context.length_layout ▸ (h.deferred_under item hitem).context_valid.encodedLen_le
      simp only [Deferred.layout, List.length_append, length_lpBytes, FixedBytes.length_val,
        digestLen]
      omega
  have hacceptedLe : r.accepted.length ≤ 512 := h.accepted_le
  have hdeferredLe : r.deferred.length ≤ 4 := h.deferred_le
  simp only [stateLayout, List.length_append, length_lpBytes, length_u64Bytes, length_u32Bytes,
    Member.length_layout, FixedBytes.length_val, hdomain, digestLen, maxReceiverStateLen]
  omega

/-! ### Writing -/

private theorem putAccepted_of_valid {item : Accepted} (h : item.key.sender.Valid) (out : Bytes) :
    putAccepted out item = .ok (out ++ item.layout) := by
  simp only [putAccepted, putMember_of_valid h, ok_bind, Accepted.layout, List.append_assoc, pure,
    Except.pure]

private theorem putDeferred_of_valid {item : Deferred} (h : item.context.Valid) (out : Bytes) :
    putDeferred out item = .ok (out ++ item.layout) := by
  have hlen : item.context.layout.length ≤ 2048 := item.context.length_layout ▸ h.encodedLen_le
  have hput : putLp out item.context.layout = .ok (out ++ lpBytes item.context.layout) :=
    putLp_eq_ok.mpr ⟨by omega, rfl⟩
  simp only [putDeferred, ApplicationContext.encode_of_valid h, hput, ok_bind, Deferred.layout,
    List.append_assoc, pure, Except.pure]

/-- A canonical state is written as its layout. -/
theorem encodeState_of_canonical (h : r.Canonical rosterCommitment payloadCommitment) :
    r.encodeState = .ok r.stateLayout := by
  have hroster : r.roster.layout.length ≤ 4096 :=
    r.roster.length_layout ▸ h.roster_valid.encodedLen_le
  have haccepted : r.accepted.length ≤ 512 := h.accepted_le
  have hdeferred : r.deferred.length ≤ 4 := h.deferred_le
  have hlp (out : Bytes) : putLp out r.roster.layout = .ok (out ++ lpBytes r.roster.layout) :=
    putLp_eq_ok.mpr ⟨by omega, rfl⟩
  have hacceptedCount (out : Bytes) : putU32 out r.accepted.length =
      .ok (out ++ u32Bytes r.accepted.length.toUInt32) := putU32_eq_ok.mpr ⟨by omega, rfl⟩
  have hdeferredCount (out : Bytes) : putU32 out r.deferred.length =
      .ok (out ++ u32Bytes r.deferred.length.toUInt32) := putU32_eq_ok.mpr ⟨by omega, rfl⟩
  have hvalidate : r.localMember.validate = .ok () := Member.validate_eq_ok_iff.mpr h.local_valid
  simp only [encodeState, Roster.encode_of_valid h.roster_valid, ok_bind, hvalidate, hlp,
    putMember_of_valid h.local_valid, hacceptedCount, hdeferredCount,
    foldlM_append fun item hitem => putAccepted_of_valid (h.sender_valid hitem),
    foldlM_append fun item hitem =>
      putDeferred_of_valid (h.deferred_under item hitem).context_valid]
  simp only [List.append_assoc]
  change (refuseIf (maxReceiverStateLen < r.stateLayout.length) Error.malformed >>= fun _ =>
    pure r.stateLayout) = _
  rw [refuseIf_neg (not_lt.mpr h.length_stateLayout_le)]
  rfl

/-! ### Reading -/

private theorem run_takeAccepted_eq_ok (hroster : roster.Valid) {nextEventId : UInt64}
    {acc acc' : List Accepted} :
    (takeAccepted roster nextEventId acc).run s = .ok (acc', rest) ↔
      ∃ item, (AcceptedUnder roster nextEventId item ∧
          ∀ earlier ∈ acc, earlier.key ≠ item.key ∧ earlier.eventId ≠ item.eventId) ∧
        acc' = acc ++ [item] ∧ s = item.layout ++ rest := by
  simp only [takeAccepted, run_bind_eq_ok, run_takeU64_eq_ok, run_takeMember_eq_ok,
    run_takeArray_eq_ok, run_refuseIf_eq_ok, run_pure_eq_ok, not_or,
    not_exists, not_and, not_not]
  constructor
  · rintro ⟨revision, _, rfl, sender, _, ⟨-, rfl⟩, sequence, _, rfl, commitment, _, rfl, eventId, _,
      rfl, _, _, ⟨⟨rfl, hsender, hid⟩, rfl⟩, _, _, ⟨⟨hkeys, hids⟩, rfl⟩, rfl, rfl⟩
    refine ⟨⟨⟨roster.groupId, roster.revision, sender, sequence⟩, commitment, eventId⟩,
      ⟨⟨rfl, rfl, hsender, ?_⟩, fun earlier he => ⟨hkeys earlier he, hids earlier he⟩⟩, rfl, ?_⟩
    · rw [Word64.le_iff, not_le] at hid
      exact Word64.lt_iff.mpr hid
    · simp only [Accepted.layout, List.append_assoc]
  · rintro ⟨⟨⟨groupId, revision, sender, sequence⟩, commitment, eventId⟩,
      ⟨⟨rfl, rfl, hsender, hid⟩, hdistinct⟩, rfl, rfl⟩
    refine ⟨roster.revision, _, ?_, sender, _, ⟨hroster.members_valid _ hsender, rfl⟩, sequence, _,
      rfl, commitment, _, rfl, eventId, rest, rfl, (), rest, ⟨⟨rfl, hsender, ?_⟩, rfl⟩, (), rest,
      ⟨⟨fun earlier he => (hdistinct earlier he).1, fun earlier he => (hdistinct earlier he).2⟩,
        rfl⟩, rfl, rfl⟩
    · simp only [Accepted.layout, List.append_assoc]
    · rw [Word64.le_iff, not_le]
      exact Word64.lt_iff.mp hid

private theorem run_takeDeferred_eq_ok {localMember : Member} {acc acc' : List Deferred} :
    (takeDeferred roster localMember payloadCommitment acc).run s = .ok (acc', rest) ↔
      ∃ item, (DeferredUnder roster localMember payloadCommitment item ∧
          ∀ earlier ∈ acc, earlier.context.key ≠ item.context.key) ∧
        acc' = acc ++ [item] ∧ s = item.layout ++ rest := by
  simp only [takeDeferred, run_bind_eq_ok, run_takeLp_eq_ok, run_lift_eq_ok,
    ApplicationContext.decode_eq_ok_iff, run_takeArray_eq_ok, refuseIf_eq_ok,
    run_pure_eq_ok, not_or, not_exists, not_and, not_not]
  constructor
  · rintro ⟨_, _, ⟨-, rfl⟩, _, _, ⟨-, rfl⟩, context, _, ⟨⟨hv, rfl⟩, rfl⟩, commitment, _, rfl, _, _,
      ⟨⟨hgroup, hrecipient, hahead, hrange, hcommitment⟩, rfl⟩, _, _, ⟨hkeys, rfl⟩, rfl, rfl⟩
    refine ⟨⟨context, commitment⟩, ⟨⟨hv, hgroup, hrecipient, ?_, ?_, hcommitment⟩, hkeys⟩, rfl, ?_⟩
    · rw [Word64.le_iff, not_le] at hahead
      exact Word64.lt_iff.mpr hahead
    · rw [Word64.lt_iff, not_lt] at hrange
      exact Word64.le_iff.mpr hrange
    · rw [Deferred.layout, List.append_assoc]
  · rintro ⟨⟨context, commitment⟩, ⟨⟨hv, hgroup, hrecipient, hahead, hrange, hcommitment⟩, hkeys⟩,
      rfl, rfl⟩
    have hlen : context.layout.length ≤ 2048 := context.length_layout ▸ hv.encodedLen_le
    refine ⟨context.layout, _, ⟨by omega, ?_⟩, (), _, ⟨not_lt.mpr hlen, rfl⟩, context, _,
      ⟨⟨hv, rfl⟩, rfl⟩, commitment, rest, rfl, (), rest,
      ⟨⟨hgroup, hrecipient, ?_, ?_, hcommitment⟩, rfl⟩, (), rest, ⟨hkeys, rfl⟩, rfl, rfl⟩
    · rw [Deferred.layout, List.append_assoc]
    · rw [Word64.le_iff, not_le]
      exact Word64.lt_iff.mp hahead
    · rw [Word64.lt_iff, not_lt]
      exact Word64.le_iff.mp hrange

private theorem run_takeHeader_eq_ok {digest : Digest} {localMember : Member}
    {nextEventId : UInt64} :
    (takeHeader rosterCommitment).run s = .ok ((roster, digest, localMember, nextEventId), rest) ↔
      (roster.Valid ∧ digest = rosterCommitment roster.layout ∧ localMember.Valid) ∧
        s = lpBytes roster.layout ++ (digest.val ++ (localMember.layout ++
          (u64Bytes nextEventId ++ rest))) := by
  simp only [takeHeader, run_bind_eq_ok, run_takeLp_eq_ok, run_lift_eq_ok,
    Roster.decode_eq_ok_iff, run_takeArray_eq_ok, refuseIf_eq_ok, run_takeMember_eq_ok,
    run_takeU64_eq_ok, run_pure_eq_ok, not_not, not_lt, Prod.mk.injEq]
  constructor
  · rintro ⟨_, _, ⟨-, rfl⟩, _, _, ⟨-, rfl⟩, _, _, ⟨⟨hroster, rfl⟩, rfl⟩, _, _, rfl, _, _,
      ⟨hdigest, rfl⟩, _, _, ⟨hlocal, rfl⟩, _, _, rfl, ⟨rfl, rfl, rfl, rfl⟩, rfl⟩
    exact ⟨⟨hroster, hdigest, hlocal⟩, rfl⟩
  · rintro ⟨⟨hroster, hdigest, hlocal⟩, rfl⟩
    have hlen : roster.layout.length ≤ 4096 := roster.length_layout ▸ hroster.encodedLen_le
    exact ⟨roster.layout, _, ⟨by omega, rfl⟩, (), _, ⟨hlen, rfl⟩, roster, _, ⟨⟨hroster, rfl⟩, rfl⟩,
      digest, _, rfl, (), _, ⟨hdigest, rfl⟩, localMember, _, ⟨hlocal, rfl⟩, nextEventId, _, rfl,
      ⟨rfl, rfl, rfl, rfl⟩, rfl⟩

private theorem run_takeState_eq_ok :
    (takeState rosterCommitment payloadCommitment).run s = .ok (r, rest) ↔
      r.Canonical rosterCommitment payloadCommitment ∧ receiverStateDomain ++ s = r.stateLayout ∧
        rest = [] := by
  simp only [takeState, run_bind_eq_ok, Prod.exists, run_takeHeader_eq_ok,
    run_lift_eq_ok, refuseIf_eq_ok, run_takeU32_eq_ok, run_finish_eq_ok,
    run_pure_eq_ok, run_loop_eq_ok fun _ _ _ _ => run_takeDeferred_eq_ok, not_or,
    not_and, not_not, not_lt]
  constructor
  · rintro ⟨roster, digest, localMember, nextEventId, _, ⟨⟨hroster, hdigest, hlocal⟩, rfl⟩,
      acceptedCount, _, rfl, _, _, ⟨hacceptedLe, rfl⟩, _, _, ⟨hterminalAccepted, rfl⟩, accepted, _,
      haccepted, deferredCount, _, rfl, _, _, ⟨hdeferredLe, rfl⟩, _, _, ⟨hterminalDeferred, rfl⟩,
      deferred, _, ⟨_, hdeferredCount, rfl, rfl, hdeferred, hdeferredPair, -⟩, _, _,
      ⟨⟨hunlistedLe, hunlisted⟩, rfl⟩, _, _, ⟨rfl, rfl⟩, rfl, rfl⟩
    rw [run_loop_eq_ok fun _ _ _ _ => run_takeAccepted_eq_ok hroster] at haccepted
    obtain ⟨_, hacceptedCount, rfl, rfl, hunder, hpair, -⟩ := haccepted
    rw [← hacceptedCount] at hacceptedLe hterminalAccepted
    rw [← hdeferredCount] at hdeferredLe hterminalDeferred
    refine ⟨⟨hroster, hdigest, hlocal, hunder, hpair, hacceptedLe, hdeferred, hdeferredPair,
      hdeferredLe, fun ht => ⟨?_, ?_⟩, ⟨hunlistedLe, hunlisted⟩⟩, ?_, rfl⟩
    · exact List.length_eq_zero_iff.mp (hterminalAccepted ht)
    · exact List.length_eq_zero_iff.mp (hterminalDeferred ht)
    · simp only [stateLayout, hacceptedCount, hdeferredCount, Nat.toUInt32, UInt32.ofNat_toNat,
        List.append_nil]
  · rintro ⟨h, hs, rfl⟩
    obtain rfl := List.append_cancel_left hs
    have haccepted : r.accepted.length ≤ 512 := h.accepted_le
    have hdeferred : r.deferred.length ≤ 4 := h.deferred_le
    have hcount {n : Nat} (hn : n ≤ 512) : n.toUInt32.toNat = n := by
      rw [toNat_toUInt32_of_lt (by omega)]
    refine ⟨r.roster, r.rosterDigest, r.localMember, r.nextEventId, _,
      ⟨⟨h.roster_valid, h.digest_eq, h.local_valid⟩, rfl⟩, r.accepted.length.toUInt32, _, rfl, (),
      _, ⟨?_, rfl⟩, (), _, ⟨?_, rfl⟩, r.accepted,
      u32Bytes r.deferred.length.toUInt32 ++ r.deferred.flatMap Deferred.layout, ?_,
      r.deferred.length.toUInt32, _, rfl, (), _, ⟨?_, rfl⟩, (), _, ⟨?_, rfl⟩, r.deferred, [], ?_,
      (), _, ⟨⟨h.unlisted.length_le, h.unlisted.identities⟩, rfl⟩, (), [], ⟨rfl, rfl⟩, rfl, rfl⟩
    · rw [hcount haccepted]
      exact h.accepted_le
    · intro ht
      rw [hcount haccepted, (h.terminal ht).1]
      rfl
    · rw [run_loop_eq_ok fun _ _ _ _ => run_takeAccepted_eq_ok h.roster_valid]
      exact ⟨r.accepted, (hcount haccepted).symm, rfl, rfl, h.accepted_under, h.accepted_distinct,
        fun _ hy => absurd hy List.not_mem_nil⟩
    · rw [hcount (by omega)]
      exact h.deferred_le
    · intro ht
      rw [hcount (by omega), (h.terminal ht).2]
      rfl
    · exact ⟨r.deferred, (hcount (by omega)).symm, rfl, (List.append_nil _).symm, h.deferred_under,
        h.deferred_distinct, fun _ hy => absurd hy List.not_mem_nil⟩

/-- A checkpoint is restored exactly if it is the layout of a canonical state. -/
theorem decodeState_eq_ok_iff {b : Bytes} :
    decodeState b rosterCommitment payloadCommitment = .ok r ↔
      r.Canonical rosterCommitment payloadCommitment ∧ b = r.stateLayout := by
  rw [decodeState, refuseIf_bind_eq_ok, not_or, not_not, not_lt, run'_eq_ok]
  simp only [run_takeState_eq_ok]
  constructor
  · rintro ⟨⟨-, tail, rfl⟩, _, hc, hlayout, -⟩
    rw [List.drop_left] at hlayout
    exact ⟨hc, hlayout⟩
  · rintro ⟨hc, rfl⟩
    refine ⟨⟨hc.length_stateLayout_le, List.prefix_append _ _⟩, [], hc, ?_, rfl⟩
    rw [stateLayout, List.drop_left]

end GroupReceiver

end Tacenta.Group
